import SessionArchive.CommandLine.Command
import SessionArchive.Text.Digits

/-!
# Values on a command line

How the text of an argument is read: as a number within bounds, as the name of a shell, or as it
stands. A number may have a plus sign in front.
-/

set_option autoImplicit false

namespace SessionArchive.CommandLine

/-- The value of one or more decimal digits. -/
def digitsValue? (cs : List Char) : Option Nat :=
  if cs.isEmpty then none else Text.ofDecimal? cs

/-- The number without a minus sign that a text is. -/
def unsigned? : List Char → Option Nat
  | '+' :: digits => digitsValue? digits
  | digits => digitsValue? digits

/-- The number that a text is, with or without a sign. -/
def signed? : List Char → Option Int
  | '-' :: digits => (digitsValue? digits).map fun n => -(n : Int)
  | cs => (unsigned? cs).map Int.ofNat

/-- A number of things: it fits in 64 bits. -/
def count? (text : String) : Option Nat :=
  (unsigned? text.toList).filter (· ≤ 0xFFFFFFFFFFFFFFFF)

/-- The number of a row: it fits in 64 bits with its sign. -/
def rowId? (text : String) : Option RowId :=
  (signed? text.toList).filter fun n => -0x8000000000000000 ≤ n && n ≤ 0x7FFFFFFFFFFFFFFF

/-- A number of days: it fits in 32 bits and is not below zero. -/
def days? (text : String) : Option Nat :=
  ((signed? text.toList).filter fun n => 0 ≤ n && n ≤ 0xFFFFFFFF).map Int.toNat

/-- The shell with a name. -/
def shell? (text : String) : Option Shell := Shell.names.lookup text

/-- What an argument may be. -/
inductive ValueKind where
  | text
  | path
  | count
  | days
  | rowId
  | shell
deriving Repr, DecidableEq

/-- Whether a text can be read as a kind of value; a path is not empty. -/
def ValueKind.accepts (kind : ValueKind) (text : String) : Bool :=
  match kind with
  | .text => true
  | .path => text ≠ ""
  | .count => (count? text).isSome
  | .days => (days? text).isSome
  | .rowId => (rowId? text).isSome
  | .shell => (shell? text).isSome

end SessionArchive.CommandLine
