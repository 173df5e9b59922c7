import SessionArchive.Pattern.Syntax
import SessionArchive.Unicode.Property

/-!
# Expressions

What a pattern means: sets of characters, conditions on a place, sequences, choices in order of
preference and repetitions. `Expression.size` estimates the memory that a compiled expression takes.
-/

set_option autoImplicit false

namespace SessionArchive.Pattern

open Unicode (CharSet)

/-- A condition on a place between two characters. -/
inductive Look where
  | textStart
  | textEnd
  | lineStart
  | lineEnd
  | lineStartCrlf
  | lineEndCrlf
  | wordBoundary (word : CharSet)
  | notWordBoundary (word : CharSet)
  | wordStart (word : CharSet)
  | wordEnd (word : CharSet)
  | wordStartHalf (word : CharSet)
  | wordEndHalf (word : CharSet)

/-- Whether a character next to a place is in a set. -/
def belongs (set : CharSet) : Option Char → Bool
  | none => false
  | some c => set.contains c

/-- Whether a condition holds between two characters; `none` stands for the end of the text. -/
def Look.holds (before after : Option Char) : Look → Bool
  | .textStart => before.isNone
  | .textEnd => after.isNone
  | .lineStart => before.isNone || before == some '\n'
  | .lineEnd => after.isNone || after == some '\n'
  | .lineStartCrlf =>
    before.isNone || before == some '\n' || (before == some '\r' && after != some '\n')
  | .lineEndCrlf =>
    after.isNone || after == some '\r' || (after == some '\n' && before != some '\r')
  | .wordBoundary word => belongs word before != belongs word after
  | .notWordBoundary word => belongs word before == belongs word after
  | .wordStart word => !belongs word before && belongs word after
  | .wordEnd word => belongs word before && !belongs word after
  | .wordStartHalf word => !belongs word before
  | .wordEndHalf word => !belongs word after

/-- What a pattern means. -/
inductive Expression where
  | empty
  | set (set : CharSet)
  | look (look : Look)
  | sequence (first second : Expression)
  | choice (preferred other : Expression)
  | repetition (least : Nat) (most : Option Nat) (greedy : Bool) (body : Expression)

namespace Expression

/-- Whether an expression may match without taking a character. -/
def nullable : Expression → Bool
  | .empty => true
  | .set s => s.ranges.isEmpty
  | .look _ => true
  | .sequence a b => a.nullable && b.nullable
  | .choice a b => a.nullable || b.nullable
  | .repetition least _ _ body => least == 0 || body.nullable

/-- About how much memory a set of characters takes: its ranges beyond ASCII take several steps
each. -/
def sizeOfSet (s : CharSet) : Nat :=
  if s.exceedsAscii then 300 + 60 * s.ranges.length else 32 + 8 * s.ranges.length

/-- About how much memory an expression takes once it is compiled, in bytes. -/
def size : Expression → Nat
  | .empty => 0
  | .set s => sizeOfSet s
  | .look _ => 32
  | .sequence a b => a.size + b.size
  | .choice a b => a.size + b.size + 40
  | .repetition least most _ body =>
    match most with
    | none => max 1 least * body.size + 40
    | some most => most * (body.size + if least < most then 40 else 0)

end Expression

end SessionArchive.Pattern
