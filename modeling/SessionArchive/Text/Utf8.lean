/-!
# UTF-8

Byte sequences as text. `pieces` reads a sequence in one pass into characters and ill-formed parts;
an ill-formed part is the longest prefix of a character that the sequence holds at that place, or
one byte where no character can start. `decode?` accepts well-formed sequences and says where the
first fault is; `decodeLossy` puts the replacement character for each ill-formed part. `size` and
`split?` measure and cut a text by the bytes of its encoding.
-/

set_option autoImplicit false

namespace SessionArchive.Text.Utf8

/-! ## Reading bytes -/

/-- A part of a byte sequence: a character, an ill-formed part followed by more, or the beginning
of a character at the end of the sequence. -/
inductive Piece where
  | char (c : Char)
  | malformed (length : Nat)
  | truncated (length : Nat)
deriving Repr, DecidableEq

/-- A character begun: the code point so far, the bytes read, the bytes still owed, and the least
and greatest byte that may follow. -/
structure Begun where
  code : Nat
  seen : Nat
  owed : Nat
  low : UInt8
  high : UInt8

/-- What a byte between characters yields: a part that it completes, or a character begun. -/
def first (b : UInt8) : List Piece × Option Begun :=
  if b < 0x80 then ([.char (Char.ofNat b.toNat)], none)
  else if 0xC2 ≤ b && b ≤ 0xDF then ([], some ⟨b.toNat % 32, 1, 1, 0x80, 0xBF⟩)
  else if b == 0xE0 then ([], some ⟨0, 1, 2, 0xA0, 0xBF⟩)
  else if b == 0xED then ([], some ⟨0xD, 1, 2, 0x80, 0x9F⟩)
  else if 0xE1 ≤ b && b ≤ 0xEF then ([], some ⟨b.toNat % 16, 1, 2, 0x80, 0xBF⟩)
  else if b == 0xF0 then ([], some ⟨0, 1, 3, 0x90, 0xBF⟩)
  else if 0xF1 ≤ b && b ≤ 0xF3 then ([], some ⟨b.toNat % 8, 1, 3, 0x80, 0xBF⟩)
  else if b == 0xF4 then ([], some ⟨4, 1, 3, 0x80, 0x8F⟩)
  else ([.malformed 1], none)

/-- What a byte yields after a character begun: its next byte, or the end of an ill-formed part. -/
def next (p : Begun) (b : UInt8) : List Piece × Option Begun :=
  if p.low ≤ b && b ≤ p.high then
    let code := p.code * 64 + b.toNat % 64
    if p.owed ≤ 1 then ([.char (Char.ofNat code)], none)
    else ([], some ⟨code, p.seen + 1, p.owed - 1, 0x80, 0xBF⟩)
  else
    -- the byte belongs to what comes next
    let (parts, begun) := first b
    (.malformed p.seen :: parts, begun)

/-- The parts of a byte sequence that follows the character begun. -/
def piecesFrom : Option Begun → List UInt8 → List Piece
  | none, [] => []
  | some p, [] => [.truncated p.seen]
  | none, b :: rest =>
    let (parts, begun) := first b
    parts ++ piecesFrom begun rest
  | some p, b :: rest =>
    let (parts, begun) := next p b
    parts ++ piecesFrom begun rest

/-- The parts of a byte sequence. -/
def pieces (bytes : List UInt8) : List Piece := piecesFrom none bytes

/-- Where a byte sequence stops being text: the index, and the length of the ill-formed part unless
the sequence ends inside a character. -/
structure Fault where
  index : Nat
  length : Option Nat
deriving Repr, DecidableEq

/-- The wording of a fault. -/
def Fault.message (fault : Fault) : String :=
  match fault.length with
  | some n => s!"invalid utf-8 sequence of {n} bytes from index {fault.index}"
  | none => s!"incomplete utf-8 byte sequence from index {fault.index}"

/-- The characters up to the first ill-formed part, counting bytes from `index`. -/
def ofPieces (index : Nat) : List Piece → Except Fault (List Char)
  | [] => .ok []
  | .char c :: rest => (ofPieces (index + c.utf8Size) rest).map (c :: ·)
  | .malformed n :: _ => .error ⟨index, some n⟩
  | .truncated _ :: _ => .error ⟨index, none⟩

/-- The text that a byte sequence encodes. -/
def decode? (bytes : List UInt8) : Except Fault String :=
  (ofPieces 0 (pieces bytes)).map String.ofList

/-- The text of a byte sequence, with U+FFFD for each ill-formed part. -/
def decodeLossy (bytes : List UInt8) : String :=
  String.ofList ((pieces bytes).map fun
    | .char c => c
    | .malformed _ => '\uFFFD'
    | .truncated _ => '\uFFFD')

/-! ## Measuring and cutting -/

/-- The number of bytes of a text. -/
def size (cs : List Char) : Nat := cs.foldl (fun n c => n + c.utf8Size) 0

/-- The text before and after the first `n` bytes; `none` past the end or inside a character. -/
def split? : Nat → List Char → Option (List Char × List Char)
  | 0, cs => some ([], cs)
  | _ + 1, [] => none
  | n + 1, c :: rest =>
    if c.utf8Size ≤ n + 1 then
      (split? (n + 1 - c.utf8Size) rest).map fun (before, after) => (c :: before, after)
    else none

/-- The bytes of a text. -/
def encode (s : String) : List UInt8 := s.toUTF8.toList

end SessionArchive.Text.Utf8
