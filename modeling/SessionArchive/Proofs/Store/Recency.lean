import SessionArchive.Proofs.Store.Operation

/-!
# The order of the saves

The saves of a run that succeed are its log, `Store.saves`. `Saved.latest` keeps of each session the
last save alone, and `Store.recent` turns that around and leaves out the sessions that are not
stored: this is what a listing is meant to show. Of the store it asks no more than whether saves
succeed and which sessions are stored.
-/

set_option autoImplicit false

namespace SessionArchive

/-- A save that succeeded: which session it was of, and under which scope. -/
structure Saved where
  id : String
  scope : Scope
deriving Repr, DecidableEq

/-- What a listing shows of the last save of a session. -/
def SessionSummary.saved (summary : SessionSummary) : Saved := ⟨summary.id, summary.scope⟩

namespace Saved

/-- Of the saves of each session only the last. -/
def latest : List Saved → List Saved
  | [] => []
  | saved :: rest => if rest.any (·.id == saved.id) then latest rest else saved :: latest rest

theorem latest_sublist (log : List Saved) : (latest log).Sublist log := by
  induction log with
  | nil => exact .slnil
  | cons saved rest ih =>
    rw [latest]
    split
    · exact ih.cons saved
    · exact ih.cons_cons saved

theorem latest_pairwise (log : List Saved) : (latest log).Pairwise fun a b => a.id ≠ b.id := by
  induction log with
  | nil => exact .nil
  | cons saved rest ih =>
    rw [latest]
    split
    · exact ih
    · rename_i hnone
      refine List.pairwise_cons.mpr ⟨fun other hother hid => hnone ?_, ih⟩
      exact List.any_eq_true.mpr
        ⟨other, (latest_sublist rest).subset hother, beq_iff_eq.mpr hid.symm⟩

/-- A save is the last one of its session, and takes the place of the one before. -/
theorem latest_append (log : List Saved) (saved : Saved) :
    latest (log ++ [saved]) = (latest log).filter (·.id != saved.id) ++ [saved] := by
  induction log with
  | nil => rfl
  | cons first rest ih =>
    have hany : (rest ++ [saved]).any (·.id == first.id) =
        (rest.any (·.id == first.id) || saved.id == first.id) := by
      simp
    rw [List.cons_append, latest, hany, ih, latest]
    cases hlater : rest.any (·.id == first.id) with
    | true => rfl
    | false =>
      by_cases hid : first.id = saved.id
      · simp [hid]
      · simp [hid, Ne.symm hid]

end Saved

/-- Whether an operation neither saves a session nor asks for the one with an id to be deleted, by
itself, with the branch that it belongs to or with the repository of that branch. -/
def Operation.spares (id : String) (branch : Branch) : Operation → Bool
  | .saveSession .. => false
  | .deleteSession other => other != id
  | .deleteBranch other => other != branch.id
  | .deleteRepository other => other != branch.repositoryId
  | _ => true

/-- The save that an operation is, if it succeeds. -/
def Operation.saved? (now : Int64) (store : Store) : Operation → Option Saved
  | .saveSession session scope =>
    match (store.saveSession session scope now).1 with
    | .ok _ => some ⟨session.id, scope⟩
    | .error _ => none
  | _ => none

namespace Store

/-- The saves that succeed along a run of operations, in order. -/
def saves (store : Store) : List (Int64 × Operation) → List Saved
  | [] => []
  | (now, operation) :: rest =>
    (operation.saved? now store).toList ++ (operation.run now store).2.saves rest

/-- Whether a session is stored under an id. -/
def stores (store : Store) (id : String) : Bool :=
  store.database.any fun db => db.sessions.rows.any fun row => row.id == id

/-- The sessions that are stored, the one whose last save came last first. -/
def recent (store : Store) (log : List Saved) : List Saved :=
  (Saved.latest log).reverse.filter fun saved => store.stores saved.id

end Store

end SessionArchive
