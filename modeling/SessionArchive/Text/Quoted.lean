import SessionArchive.Text.Digits
import SessionArchive.Unicode.Property

/-!
# Quoted text

A text between double quotes, for messages and log fields. A quote, a backslash and the common
control characters get a backslash; a character that cannot be seen on its own (one that is not
printable, or that extends the character before it) is written by its code point.
-/

set_option autoImplicit false

namespace SessionArchive.Text

/-- Whether a character is visible on its own. -/
def standsAlone (c : Char) : Bool :=
  (0x20 ≤ c.toNat && c.toNat < 0x7F) ||
    (Unicode.isPrintable c && !Unicode.graphemeExtend.contains c)

/-- A character as it stands between quotes. -/
def quotedChar (c : Char) : List Char :=
  if c = '\x00' then ['\\', '0']
  else if c = '\t' then ['\\', 't']
  else if c = '\r' then ['\\', 'r']
  else if c = '\n' then ['\\', 'n']
  else if c = '\\' then ['\\', '\\']
  else if c = '"' then ['\\', '"']
  else if standsAlone c then [c]
  else '\\' :: 'u' :: '{' :: hexadecimal c.toNat ++ ['}']

/-- The text between quotes. -/
def quoted (s : String) : String :=
  String.ofList ('"' :: s.toList.flatMap quotedChar ++ ['"'])

end SessionArchive.Text
