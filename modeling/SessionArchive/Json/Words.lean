import SessionArchive.Json.Reader

/-!
# Integers of fixed range

Readers of the integers that records hold: signed and unsigned words, and numbers that are kept as
numbers but have to fit in a word. Each names its range when it refuses a value.
-/

set_option autoImplicit false

namespace SessionArchive.Json

/-- An integer that fits in a signed word of 64 bits. -/
def readSigned : Reader Int := readInteger "i64" (-0x8000000000000000) 0x8000000000000000

/-- A signed word of 64 bits. -/
def readInt64 : Reader Int64 := fun depth cs =>
  (readSigned depth cs).map fun (n, rest) => (Int64.ofInt n, rest)

/-- A count of things, which fits in an unsigned word of 64 bits. -/
def readCount : Reader Nat := fun depth cs =>
  (readInteger "usize" 0 0x10000000000000000 depth cs).map fun (n, rest) => (n.toNat, rest)

/-- A limit on a count. -/
def readLimit : Reader UInt64 := fun depth cs =>
  (readCount depth cs).map fun (n, rest) => (UInt64.ofNat n, rest)

/-- An unsigned word of 64 bits. -/
def readUInt64 : Reader UInt64 := fun depth cs =>
  (readInteger "u64" 0 0x10000000000000000 depth cs).map
    fun (n, rest) => (UInt64.ofNat n.toNat, rest)

/-- An unsigned word of 32 bits. -/
def readUInt32 : Reader UInt32 := fun depth cs =>
  (readInteger "u32" 0 0x100000000 depth cs).map fun (n, rest) => (UInt32.ofNat n.toNat, rest)

end SessionArchive.Json
