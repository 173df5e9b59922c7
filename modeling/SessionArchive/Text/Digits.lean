/-!
# Digits

Numbers and their digits in base ten and sixteen, least surprise first: `decimal` and `hexadecimal`
write a number with no leading zero, `ofDigits` reads a list of digit values back. Every format of
the library that holds a number (JSON, counted repetitions of a pattern, command line counts) is
built on these.
-/

set_option autoImplicit false

namespace SessionArchive.Text

/-- The value of a decimal digit. -/
def decimalDigit? (c : Char) : Option Nat :=
  if '0' ≤ c ∧ c ≤ '9' then some (c.toNat - '0'.toNat) else none

/-- The value of a hexadecimal digit, in either case. -/
def hexDigit? (c : Char) : Option Nat :=
  if '0' ≤ c ∧ c ≤ '9' then some (c.toNat - '0'.toNat)
  else if 'a' ≤ c ∧ c ≤ 'f' then some (c.toNat - 'a'.toNat + 10)
  else if 'A' ≤ c ∧ c ≤ 'F' then some (c.toNat - 'A'.toNat + 10)
  else none

/-- Whether a character is one of the ten decimal digits of ASCII. -/
def isDigit (c : Char) : Bool := '0' ≤ c && c ≤ '9'

/-- The character of a digit below sixteen, letters in lower case. -/
def digitChar (d : Nat) : Char :=
  if d < 10 then Char.ofNat ('0'.toNat + d) else Char.ofNat ('a'.toNat + (d - 10))

/-- The number whose digits in base `base` are given, most significant first. -/
def ofDigits (base : Nat) (digits : List Nat) : Nat :=
  digits.foldl (fun n d => n * base + d) 0

/-- The decimal digits of a number; zero is the one digit zero. -/
def decimal (n : Nat) : List Char :=
  if n < 10 then [digitChar n] else decimal (n / 10) ++ [digitChar (n % 10)]
termination_by n
decreasing_by omega

/-- The hexadecimal digits of a number, in lower case. -/
def hexadecimal (n : Nat) : List Char :=
  if n < 16 then [digitChar n] else hexadecimal (n / 16) ++ [digitChar (n % 16)]
termination_by n
decreasing_by omega

/-- A number written with a minus sign exactly when it is negative. -/
def signedDecimal : Int → List Char
  | .ofNat n => decimal n
  | .negSucc n => '-' :: decimal (n + 1)

/-- Digits filled up with zeros on the left to a least width. -/
def padZero (width : Nat) (digits : List Char) : List Char :=
  List.replicate (width - digits.length) '0' ++ digits

/-- The value of a run of decimal digits, `none` where another character stands in it. -/
def ofDecimal? (cs : List Char) : Option Nat :=
  (cs.mapM decimalDigit?).map (ofDigits 10)

/-- The value of a run of hexadecimal digits, `none` where another character stands in it. -/
def ofHex? (cs : List Char) : Option Nat :=
  (cs.mapM hexDigit?).map (ofDigits 16)

end SessionArchive.Text
