import SessionArchive.Json.Printer
import SessionArchive.Text.Quoted
import SessionArchive.Text.Utf8

/-!
# Faults in JSON text

Why a text does not read as a value, and where. A `Cause` is worded by `Cause.message`. A `Fault`
carries the text that was left when it arose; `Fault.position` turns that into a line and a column,
and a fault that was never placed has none.
-/

set_option autoImplicit false

namespace SessionArchive.Json

/-- What stands where a value of another kind was expected. -/
inductive Found where
  | null
  | bool (b : Bool)
  | number (n : Numeral)
  | string (s : String)
  | array
  | object
deriving Repr, DecidableEq

/-- What a value is found to be. -/
def found : Json → Found
  | .null => .null
  | .bool b => .bool b
  | .number n => .number n
  | .string s => .string s
  | .array _ => .array
  | .object _ => .object

/-- The wording of what was found. -/
def Found.describe : Found → String
  | .null => "null"
  | .bool b => s!"boolean `{b}`"
  | .number (.integer n) => s!"integer `{String.ofList (Text.signedDecimal n)}`"
  | .number (.float x) => s!"floating point `{String.ofList (x.write Number.jsonStyle)}`"
  | .string s => s!"string {Text.quoted s}"
  | .array => "sequence"
  | .object => "map"

/-- Why a text does not read as a value of the kind asked for. -/
inductive Cause where
  | arrayCutOff
  | objectCutOff
  | stringCutOff
  | valueCutOff
  | expectedColon
  | expectedItemEnd
  | expectedMemberEnd
  | expectedWord
  | expectedValue
  | invalidEscape
  | invalidNumber
  | numberOutOfRange
  | controlCharacter
  | keyNotString
  | loneSurrogate
  | trailingComma
  | trailingText
  | escapeCutOff
  | tooDeep
  | wrongKind (found : Found) (expected : String)
  | wrongValue (found : Found) (expected : String)
  | wrongLength (found : Nat) (expected : String)
  | unknownName (found : String) (names : List String)
  | missingMember (name : String)
  | repeatedMember (name : String)
deriving Repr, DecidableEq

/-- The names that were expected, each between grave accents. -/
def namesExpected : List String → String
  | [] => "there are no variants"
  | [a] => s!"expected `{a}`"
  | [a, b] => s!"expected `{a}` or `{b}`"
  | names => "expected one of " ++ ", ".intercalate (names.map fun name => s!"`{name}`")

/-- The wording of a cause. -/
def Cause.message : Cause → String
  | .arrayCutOff => "EOF while parsing a list"
  | .objectCutOff => "EOF while parsing an object"
  | .stringCutOff => "EOF while parsing a string"
  | .valueCutOff => "EOF while parsing a value"
  | .expectedColon => "expected `:`"
  | .expectedItemEnd => "expected `,` or `]`"
  | .expectedMemberEnd => "expected `,` or `\x7d`"
  | .expectedWord => "expected ident"
  | .expectedValue => "expected value"
  | .invalidEscape => "invalid escape"
  | .invalidNumber => "invalid number"
  | .numberOutOfRange => "number out of range"
  | .controlCharacter => "control character (\\u0000-\\u001F) found while parsing a string"
  | .keyNotString => "key must be a string"
  | .loneSurrogate => "lone leading surrogate in hex escape"
  | .trailingComma => "trailing comma"
  | .trailingText => "trailing characters"
  | .escapeCutOff => "unexpected end of hex escape"
  | .tooDeep => "recursion limit exceeded"
  | .wrongKind found expected => s!"invalid type: {found.describe}, expected {expected}"
  | .wrongValue found expected => s!"invalid value: {found.describe}, expected {expected}"
  | .wrongLength found expected => s!"invalid length {found}, expected {expected}"
  | .unknownName found names => s!"unknown variant `{found}`, {namesExpected names}"
  | .missingMember name => s!"missing field `{name}`"
  | .repeatedMember name => s!"duplicate field `{name}`"

/-- A fault: its cause, the text that was left when it arose, and its place, counted in bytes from
the start of that text. A fault about a whole value has no place until its container ends. -/
structure Fault where
  cause : Cause
  rest : List Char
  mark : Option Nat
deriving Repr

/-- A line and a column, both as the wording of a fault gives them: lines count from one, columns
are the bytes since the last line break. -/
structure Position where
  line : Nat
  column : Nat
deriving Repr, DecidableEq

/-- The position after the first `index` bytes of a text. -/
def positionAt : Nat → List Char → Position → Position
  | 0, _, at_ => at_
  | _, [], at_ => at_
  | n + 1, c :: rest, at_ =>
    if c = '\n' then positionAt n rest ⟨at_.line + 1, 0⟩
    else positionAt (n + 1 - c.utf8Size) rest
      ⟨at_.line, at_.column + min c.utf8Size (n + 1)⟩

/-- Where a fault is in the text that was read, if it was placed. -/
def Fault.position (text : List Char) (fault : Fault) : Option Position :=
  fault.mark.map fun mark =>
    positionAt (Text.Utf8.size text - Text.Utf8.size fault.rest + mark) text ⟨1, 0⟩

/-- The wording of a fault, with its position if it has one. -/
def Fault.message (text : List Char) (fault : Fault) : String :=
  match fault.position text with
  | some p => s!"{fault.cause.message} at line {p.line} column {p.column}"
  | none => fault.cause.message

end SessionArchive.Json
