import SessionArchive.Pattern.Machine
import SessionArchive.Pattern.Meaning
import SessionArchive.Pattern.Reading

/-!
# Patterns

A `Pattern` is a regular expression that was read and compiled. `Pattern.compile` refuses malformed
patterns with a `Pattern.Fault`; `Pattern.find` yields the leftmost match in a text as a pair of
byte offsets.
-/

set_option autoImplicit false

namespace SessionArchive

/-- A compiled pattern: its instructions and the first one. -/
structure Pattern where
  program : Pattern.Program
  entry : Nat

namespace Pattern

/-- The compiled form of an expression. -/
def ofExpression (e : Expression) : Pattern :=
  let (entry, program) := e.compile 0 #[.accept]
  ⟨program, entry⟩

/-- Reads and compiles a pattern. -/
def compile (text : String) : Except Fault Pattern := do
  let tree ← read text
  let (expression, _) ← tree.meaning Flags.initial
  if expression.size > greatestSize then .error .tooBig
  else .ok (ofExpression expression)

/-- The leftmost match in a text, from one byte offset to another. -/
def find (pattern : Pattern) (text : String) : Option (Nat × Nat) :=
  run pattern.program pattern.entry none 1 0 none
    ⟨[], Array.replicate pattern.program.size 0⟩ text.toList

end Pattern

end SessionArchive
