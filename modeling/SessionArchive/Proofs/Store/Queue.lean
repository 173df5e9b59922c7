import Mathlib.Data.List.DropRight
import SessionArchive.Proofs.Store.Shelf

/-!
# History as queues

A `Queue` holds the texts that were appended to one stream of one scope, in the order in which they
came: it is what the history of a scope is meant to be. `Queue.step` says what an operation does to
it, and `Queue.play` keeps one along a run of operations. Of the store it asks no more than which
branch the scope is, so as to know when that is deleted.
-/

set_option autoImplicit false

namespace SessionArchive

open Store (ageCutoff)

/-- A text that was appended, and when. -/
structure Remembered where
  text : String
  time : Int64
deriving Repr, DecidableEq

/-- What an entry remembers. -/
def HistoryEntry.remembered (entry : HistoryEntry) : Remembered := ⟨entry.text, entry.timestamp⟩

/-- The texts that are remembered, in the order in which they came. -/
abbrev Queue := List Remembered

namespace Queue

/-- The last texts, up to a number; zero is no limit. -/
def last (queue : Queue) (count : Nat) : Queue :=
  if count = 0 then queue else queue.rtake count

/-- With a text at the back, of all of which only the last ones stay. -/
def push (queue : Queue) (text : String) (now : Int64) (maxEntries : Nat) : Queue :=
  last (queue ++ [⟨text, now⟩]) maxEntries

/-- Without the texts that are older than a number of days; zero is no limit. -/
def expire (queue : Queue) (now : Int64) (days : Nat) : Queue :=
  if days = 0 then queue
  else queue.filter fun remembered => ageCutoff now days ≤ remembered.time.toInt

section Step

variable (kind : HistoryKind) (scope : Scope)

/-- The queue of a stream of a scope after an operation, before which the scope was a branch, or was
not there. -/
def step (now : Int64) (branch : Option Branch) (queue : Queue) : Operation → Queue
  | .appendHistory kind' scope' text maxEntries =>
    if kind = kind' ∧ scope = scope' then queue.push text now maxEntries else queue
  | .clearHistory kind' scope' => if kind = kind' ∧ scope = scope' then [] else queue
  | .deleteBranch id => if branch.any (·.id == id) then [] else queue
  | .deleteRepository id => if branch.any (·.repositoryId == id) then [] else queue
  | .cleanupHistory maxAgeDays => queue.expire now maxAgeDays
  | _ => queue

/-- The queue of a stream of a scope after a run of operations on a store. -/
def play (queue : Queue) (store : Store) : List (Int64 × Operation) → Queue
  | [] => queue
  | (now, operation) :: rest =>
    play (step kind scope now (Shelf.branchOf store scope) queue operation)
      (operation.run now store).2 rest

end Step

end Queue

end SessionArchive
