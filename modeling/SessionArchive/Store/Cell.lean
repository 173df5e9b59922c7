import SessionArchive.Number.Binary64
import SessionArchive.Store.Fault
import SessionArchive.Text.Digits

/-!
# Stored values

The columns of a message may be set to values of any kind from outside, so they hold `Cell`s. A
column has an affinity: a column for text turns numbers into their text, a column for integers turns
text that is a number into the number. Values are ordered by kind first: numbers, texts, byte
strings.
-/

set_option autoImplicit false

namespace SessionArchive.Store

open Number (Binary64)

/-- A stored value; `rawText` is text whose bytes are no UTF-8. -/
inductive Cell where
  | integer (n : Int)
  | real (x : Binary64)
  | text (s : String)
  | rawText (bytes : List UInt8)
  | blob (bytes : List UInt8)
deriving Repr, DecidableEq

namespace Cell

/-- The kind of a value. -/
def kind : Cell → CellKind
  | .integer _ => .integer
  | .real _ => .real
  | .text _ => .text
  | .rawText _ => .text
  | .blob _ => .blob

/-- The value as an integer; `index` and `column` name the place of the value in a row. -/
def toInt (index : Nat) (column : String) : Cell → Except Fault Int
  | .integer n => .ok n
  | cell => .error (.wrongKind cell.kind index column)

/-- The value as text. -/
def toText (index : Nat) (column : String) : Cell → Except Fault String
  | .text s => .ok s
  | .rawText bytes =>
    match Text.Utf8.decode? bytes with
    | .ok s => .ok s
    | .error fault => .error (.brokenText index fault)
  | cell => .error (.wrongKind cell.kind index column)

/-- Text of given bytes. -/
def ofBytes (bytes : List UInt8) : Cell :=
  match Text.Utf8.decode? bytes with
  | .ok s => .text s
  | .error _ => .rawText bytes

/-! ## Affinity -/

/-- The kinds of columns. -/
inductive Affinity where
  | text
  | integer
deriving Repr, DecidableEq

/-- The blanks that may surround a number. -/
def isBlank (c : Char) : Bool := c == ' ' || ('\t' ≤ c && c ≤ '\r')

/-- A decimal number: its sign, its digits as a number, and the power of ten that they count. -/
structure DecimalText where
  negative : Bool
  digits : Nat
  exponent : Int
  isInteger : Bool

/-- Removes a sign from the front; `true` for a minus. -/
def takeSign : List Char → Bool × List Char
  | '-' :: rest => (true, rest)
  | '+' :: rest => (false, rest)
  | cs => (false, cs)

/-- The exponent that a text ends with: nothing, or a letter, a sign and digits. -/
def exponentOfText? : List Char → Option (Option Int)
  | [] => some none
  | c :: rest =>
    if c = 'e' ∨ c = 'E' then
      let (negative, digits) := takeSign rest
      if digits.isEmpty then none
      else (Text.ofDecimal? digits).map fun n => some (if negative then -(n : Int) else n)
    else none

/-- The decimal number that a text is, blanks around it left aside. -/
def decimalOfText? (cs : List Char) : Option DecimalText :=
  let (negative, body) := takeSign (((cs.dropWhile isBlank).reverse.dropWhile isBlank).reverse)
  let whole := body.takeWhile Text.isDigit
  let (point, afterPoint) := match body.drop whole.length with
    | '.' :: rest => (true, rest)
    | rest => (false, rest)
  let fraction := if point then afterPoint.takeWhile Text.isDigit else []
  match exponentOfText? (afterPoint.drop fraction.length) with
  | none => none
  | some exponent =>
    if whole.isEmpty && fraction.isEmpty then none
    else
      (Text.ofDecimal? (whole ++ fraction)).map fun digits =>
        ⟨negative, digits, exponent.getD 0 - fraction.length, !point && exponent.isNone⟩

/-- Whether an integer fits in 64 bits. -/
def fits (n : Int) : Bool := -0x8000000000000000 ≤ n && n ≤ 0x7FFFFFFFFFFFFFFF

/-- The greatest exponent that is computed with. -/
def greatestExponent : Int := 400

/-- The number nearest to a decimal. -/
def DecimalText.toReal? (d : DecimalText) : Option Binary64 :=
  match max (-greatestExponent) (min greatestExponent d.exponent) with
  | .ofNat k => Binary64.round d.negative (d.digits * Nat.pow 10 k) 1
  | .negSucc k => Binary64.round d.negative d.digits (Nat.pow 10 (k + 1))

/-- A real number as an integer, if it is one and fits. -/
def integerOfReal? (x : Binary64) : Option Int :=
  let (num, den) := x.magnitude
  if num % den = 0 then
    let n : Int := if x.negative then -(num / den : Nat) else (num / den : Nat)
    -- the two ends of the range are left as reals
    if fits n && n != 0x7FFFFFFFFFFFFFFF && n != -0x8000000000000000 then some n else none
  else none

/-- The number that a text stands for in a column of integers. -/
def numberOfText? (s : String) : Option Cell :=
  (decimalOfText? s.toList).bind fun d =>
    let n : Int := if d.negative then -(d.digits : Int) else d.digits
    if d.isInteger && fits n then some (.integer n)
    else d.toReal?.map fun x =>
      match integerOfReal? x with
      | some n => .integer n
      | none => .real x

/-- A value as a column stores it. -/
def store (affinity : Affinity) (cell : Cell) : Cell :=
  match affinity, cell with
  | .text, .integer n => .text (String.ofList (Text.signedDecimal n))
  | .integer, .text s => (numberOfText? s).getD cell
  | _, _ => cell

/-! ## Order -/

/-- The number of a real as a fraction with a sign. -/
def fraction : Cell → Int × Nat
  | .integer n => (n, 1)
  | .real x =>
    let (num, den) := x.magnitude
    (if x.negative then -(num : Int) else num, den)
  | _ => (0, 1)

/-- The place of a value's kind in the order of kinds. -/
def rank : Cell → Nat
  | .integer _ => 0
  | .real _ => 0
  | .text _ => 1
  | .rawText _ => 1
  | .blob _ => 2

/-- The bytes of a text or byte string. -/
def bytes : Cell → List UInt8
  | .text s => Text.Utf8.encode s
  | .rawText b => b
  | .blob b => b
  | _ => []

/-- Whether a byte string comes before another, byte by byte. -/
def bytesBefore : List UInt8 → List UInt8 → Bool
  | _, [] => false
  | [], _ :: _ => true
  | a :: as, b :: bs => a < b || (a == b && bytesBefore as bs)

/-- Whether a value comes before another. -/
def isBefore (a b : Cell) : Bool :=
  -- numbers come before text, and text before byte strings
  if a.rank ≠ b.rank then a.rank < b.rank
  else if a.rank = 0 then
    a.fraction.1 * b.fraction.2 < b.fraction.1 * a.fraction.2
  else bytesBefore a.bytes b.bytes

end Cell

end SessionArchive.Store
