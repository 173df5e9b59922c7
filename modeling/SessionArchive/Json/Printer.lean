import SessionArchive.Json.Value
import SessionArchive.Number.Shortest
import SessionArchive.Text.Digits

/-!
# JSON text of a value

`compact` writes a value on one line without blanks; `indented` puts every item and member on a line
of its own, two blanks further in than its container, and keeps empty containers on one line. In a
string only the quote, the backslash and the characters below U+0020 are escaped.
-/

set_option autoImplicit false

namespace SessionArchive.Json

/-! ## Strings and numbers -/

/-- A character of a string as it stands between the quotes. -/
def escaped (c : Char) : List Char :=
  if c = '"' then ['\\', '"']
  else if c = '\\' then ['\\', '\\']
  else if c = '\x08' then ['\\', 'b']
  else if c = '\x0c' then ['\\', 'f']
  else if c = '\n' then ['\\', 'n']
  else if c = '\r' then ['\\', 'r']
  else if c = '\t' then ['\\', 't']
  else if c.toNat < 0x20 then '\\' :: 'u' :: Text.padZero 4 (Text.hexadecimal c.toNat)
  else [c]

/-- A string with its quotes. -/
def quoted (s : String) : List Char := '"' :: s.toList.flatMap escaped ++ ['"']

/-- The text of a number. -/
def Numeral.text : Numeral → List Char
  | .integer n => Text.signedDecimal n
  | .float x => x.write Number.jsonStyle

/-! ## On one line -/

mutual

/-- The text of a value on one line. -/
def compact : Json → List Char
  | .null => ['n', 'u', 'l', 'l']
  | .bool true => ['t', 'r', 'u', 'e']
  | .bool false => ['f', 'a', 'l', 's', 'e']
  | .number n => n.text
  | .string s => quoted s
  | .array [] => ['[', ']']
  | .array (v :: rest) => '[' :: compact v ++ compactItems rest
  | .object [] => ['{', '}']
  | .object ((k, v) :: rest) => '{' :: quoted k ++ ':' :: compact v ++ compactMembers rest

/-- The items after the first, with the end of the array. -/
def compactItems : List Json → List Char
  | [] => [']']
  | v :: rest => ',' :: compact v ++ compactItems rest

/-- The members after the first, with the end of the object. -/
def compactMembers : List (String × Json) → List Char
  | [] => ['}']
  | (k, v) :: rest => ',' :: quoted k ++ ':' :: compact v ++ compactMembers rest

end

/-- The text of a value on one line, as a string. -/
def toCompact (v : Json) : String := String.ofList v.compact

/-! ## On many lines -/

/-- A line break and the blanks of a level. -/
def lineAt (level : Nat) : List Char := '\n' :: List.replicate (2 * level) ' '

mutual

/-- The text of a value on many lines, where the value stands at a level. -/
def indented (level : Nat) : Json → List Char
  | .null => ['n', 'u', 'l', 'l']
  | .bool true => ['t', 'r', 'u', 'e']
  | .bool false => ['f', 'a', 'l', 's', 'e']
  | .number n => n.text
  | .string s => quoted s
  | .array [] => ['[', ']']
  | .array (v :: rest) =>
    '[' :: lineAt (level + 1) ++ indented (level + 1) v ++ indentedItems level rest
  | .object [] => ['{', '}']
  | .object ((k, v) :: rest) =>
    '{' :: lineAt (level + 1) ++ quoted k ++ ':' :: ' ' :: indented (level + 1) v ++
      indentedMembers level rest

/-- The items after the first, with the end of the array, which stands at a level. -/
def indentedItems (level : Nat) : List Json → List Char
  | [] => lineAt level ++ [']']
  | v :: rest =>
    ',' :: lineAt (level + 1) ++ indented (level + 1) v ++ indentedItems level rest

/-- The members after the first, with the end of the object, which stands at a level. -/
def indentedMembers (level : Nat) : List (String × Json) → List Char
  | [] => lineAt level ++ ['}']
  | (k, v) :: rest =>
    ',' :: lineAt (level + 1) ++ quoted k ++ ':' :: ' ' :: indented (level + 1) v ++
      indentedMembers level rest

end

/-- The text of a value on many lines, as a string. -/
def toIndented (v : Json) : String := String.ofList (v.indented 0)

end SessionArchive.Json
