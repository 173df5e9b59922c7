import SessionArchive.Proofs.Store.Operation

/-!
# The store as a shelf of sessions

A `Shelf` holds the sessions that were saved last, each under its own id, in the order of the saves:
it is what a store is meant to be. `Shelf.step` says what an operation that succeeds does to it, and
`Shelf.play` keeps one along a run of operations. Of the store it asks no more than whether an
operation succeeds and which branch a scope is.
-/

set_option autoImplicit false

namespace SessionArchive

open Store (ageCutoff)

/-! ## Shelves -/

/-- A session as it was saved last, and the branch that it was saved under. -/
structure Kept where
  loaded : LoadedSession
  branch : Option Branch

namespace Kept

def id (kept : Kept) : String := kept.loaded.session.id

def lastUpdated (kept : Kept) : Int64 := kept.loaded.session.lastUpdated

end Kept

/-- The sessions that are kept, in the order of their saves. -/
abbrev Shelf := List Kept

namespace Shelf

/-- The session with an id. -/
def load (shelf : Shelf) (id : String) : Option LoadedSession :=
  (shelf.find? fun kept => kept.id == id).map Kept.loaded

/-- A save takes the place of the one before under the same id. -/
def save (shelf : Shelf) (kept : Kept) : Shelf :=
  (shelf.filter fun other => other.id != kept.id) ++ [kept]

/-- Whether a session at a place of the shelf was saved no earlier than another. -/
def recencyLe (a b : Kept × Nat) : Bool :=
  b.1.lastUpdated.toInt < a.1.lastUpdated.toInt ||
    (a.1.lastUpdated == b.1.lastUpdated && b.2 ≤ a.2)

/-- The sessions, the one saved last first. -/
def byRecency (shelf : Shelf) : Shelf := (shelf.zipIdx.mergeSort recencyLe).map Prod.fst

/-- Without the sessions that were not saved for a number of days; zero is no limit. -/
def expire (shelf : Shelf) (now : Int64) (days : Nat) : Shelf :=
  if days = 0 then shelf
  else shelf.filter fun kept => !(kept.lastUpdated.toInt < ageCutoff now days)

/-- The sessions that were saved last, up to a number; zero is no limit. -/
def trim (shelf : Shelf) (keep : Nat) : Shelf :=
  if keep = 0 then shelf
  else shelf.filter fun kept => ((shelf.byRecency.take keep).map Kept.id).contains kept.id

/-- The branch of a scope in a store. -/
def branchOf (store : Store) (scope : Scope) : Option Branch :=
  (store.findScope scope).toOption.join

/-- The shelf after an operation that succeeded and left a store behind. -/
def step (shelf : Shelf) (now : Int64) (left : Store) : Operation → Shelf
  | .saveSession session scope =>
    shelf.save ⟨⟨scope, { session with lastUpdated := now }⟩, branchOf left scope⟩
  | .deleteSession id => shelf.filter fun kept => !(kept.id == id)
  | .deleteBranch id => shelf.filter fun kept => !(kept.branch.any (·.id == id))
  | .deleteRepository id => shelf.filter fun kept => !(kept.branch.any (·.repositoryId == id))
  | .cleanupSessions maxAgeDays maxSessions => (shelf.expire now maxAgeDays).trim maxSessions
  | _ => shelf

/-- The shelf after an operation on a store; one that fails leaves it as it is. -/
def after (shelf : Shelf) (now : Int64) (store : Store) (operation : Operation) : Shelf :=
  match operation.run now store with
  | (.ok _, left) => shelf.step now left operation
  | (.error _, _) => shelf

/-- The shelf after a run of operations on a store. -/
def play (shelf : Shelf) (store : Store) : List (Int64 × Operation) → Shelf
  | [] => shelf
  | (now, operation) :: rest =>
    (shelf.after now store operation).play (operation.run now store).2 rest

section After

variable {store left : Store} {now : Int64} {operation : Operation}

theorem after_of_ok {answer : operation.Answer}
    (h : operation.run now store = (.ok answer, left)) (shelf : Shelf) :
    shelf.after now store operation = shelf.step now left operation := by
  simp only [after]
  rw [h]

theorem after_of_error {failure : Failure} (h : operation.run now store = (.error failure, left))
    (shelf : Shelf) : shelf.after now store operation = shelf := by
  simp only [after]
  rw [h]

end After

end Shelf

end SessionArchive
