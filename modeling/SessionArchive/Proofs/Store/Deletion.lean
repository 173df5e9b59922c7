import SessionArchive.Proofs.Store.Lifetime
import SessionArchive.Proofs.Store.Sorting

/-!
# Deletions

A branch belongs to its repository, a session and an entry of history to their branch, a message to
its session. A `Deletion` takes the row that it names and all that belongs to it: `Deletion.leaves`
is the database without these rows, and `Deletion.perform_cases` says that it is what a deletion
leaves, unless there is nothing to delete.
-/

set_option autoImplicit false

namespace SessionArchive.Store

/-- The number of rows goes down where there is one to remove. -/
theorem count_eq_zero_iff {α : Type} {p : α → Bool} {rows : List α} :
    rows.length - (rows.filter (!p ·)).length = 0 ↔ rows.any p = false := by
  simp only [List.any_eq_false, Bool.not_eq_true]
  constructor
  · intro hcount
    exact forall_of_count_eq_zero hcount
  · intro hnone
    rw [filter_not_of_none hnone, Nat.sub_self]

theorem Database.removeBranches_congr {db : Database} {p q : Branch → Bool}
    (h : ∀ b ∈ db.branches.rows, p b = q b) : db.removeBranches p = db.removeBranches q := by
  have hnot : db.branches.rows.filter (!p ·) = db.branches.rows.filter (!q ·) := by
    apply List.filter_congr
    intro b hb
    rw [h b hb]
  simp only [Database.removeBranches, List.filter_congr h, hnot]

/-- What can be deleted, by its id. -/
inductive Deletion where
  | repository (id : RowId)
  | branch (id : RowId)
  | session (id : String)

namespace Deletion

/-- Deletes from a store. -/
def perform (store : Store) : Deletion → Except Failure Unit × Store
  | .repository id => store.deleteRepository id
  | .branch id => store.deleteBranch id
  | .session id => store.deleteSession id

/-- The failure where nothing has the id. -/
def absent : Deletion → Failure
  | .repository id => .repositoryNotFound (toString id)
  | .branch id => .branchNotFound (toString id)
  | .session id => .sessionNotFound id

/-- Whether a row has the id. -/
def names (db : Database) : Deletion → Bool
  | .repository id => db.repositories.rows.any fun r => r.id == id
  | .branch id => db.branches.rows.any fun b => b.id == id
  | .session id => db.sessions.rows.any fun s => s.id == id

/-! ## The rows that are taken -/

/-- A repository is taken by its own deletion. -/
def takesRepository (r : Repository) : Deletion → Bool
  | .repository id => r.id == id
  | _ => false

/-- A branch is taken with its repository or by its own deletion. -/
def takesBranch (b : Branch) : Deletion → Bool
  | .repository id => b.repositoryId == id
  | .branch id => b.id == id
  | .session _ => false

/-- What belongs to a branch is taken with it. -/
def takesOwned (db : Database) (branchId : RowId) (deletion : Deletion) : Bool :=
  db.branches.rows.any fun b => b.id == branchId && deletion.takesBranch b

/-- A session is taken with the branch that it was last saved under or by its own deletion. -/
def takesSession (db : Database) (s : SessionRow) : Deletion → Bool
  | .session id => s.id == id
  | deletion => deletion.takesOwned db s.branchId

/-- What belongs to a session is taken with it. -/
def takesSessionId (db : Database) (id : String) (deletion : Deletion) : Bool :=
  db.sessions.rows.any fun s => s.id == id && deletion.takesSession db s

/-- The database without the rows that are taken. -/
def leaves (db : Database) (deletion : Deletion) : Database :=
  let entries := fun table : Table HistoryEntry =>
    table.withRows (table.rows.filter fun e => !deletion.takesOwned db e.branchId)
  { db with
    repositories := db.repositories.withRows
      (db.repositories.rows.filter fun r => !deletion.takesRepository r)
    branches := db.branches.withRows (db.branches.rows.filter fun b => !deletion.takesBranch b)
    sessions := db.sessions.withRows (db.sessions.rows.filter fun s => !deletion.takesSession db s)
    messages := db.messages.withRows
      (db.messages.rows.filter fun m => !deletion.takesSessionId db m.sessionId)
    prompts := entries db.prompts
    commands := entries db.commands }

/-! ## What is deleted is what is taken -/

variable {db : Database}

theorem leaves_session (db : Database) (id : String) :
    (Deletion.session id).leaves db = db.removeSessions fun s => s.id == id := by
  have hnone : ∀ branchId, (Deletion.session id).takesOwned db branchId = false := by
    intro branchId
    simp [takesOwned, takesBranch]
  simp only [leaves, hnone, takesRepository, takesBranch, takesSession, takesSessionId,
    Database.removeSessions, contains_map_filter_eq_any, Bool.not_false, List.filter_true,
    Table.withRows]

theorem leaves_branch (db : Database) (id : RowId) :
    (Deletion.branch id).leaves db = db.removeBranches fun b => b.id == id := by
  simp only [leaves, takesOwned, takesRepository, takesBranch, takesSession, takesSessionId,
    Database.removeBranches, Database.removeSessions, contains_map_filter_eq_any, Bool.not_false,
    List.filter_true, Table.withRows]

/-- The branches that go with a repository are those that belong to it. -/
theorem leaves_repository (h : db.Sound) (id : RowId) :
    (Deletion.repository id).leaves db = db.removeRepositories fun r => r.id == id := by
  have hbranches : db.removeBranches (fun b =>
      ((db.repositories.rows.filter fun r => r.id == id).map Repository.id).contains
        b.repositoryId) = db.removeBranches fun b => b.repositoryId == id :=
    Database.removeBranches_congr fun b hb => h.contains_ownRepository hb id
  simp only [Database.removeRepositories, hbranches]
  simp only [leaves, takesOwned, takesRepository, takesBranch, takesSession, takesSessionId,
    Database.removeBranches, Database.removeSessions, contains_map_filter_eq_any]

theorem leaves_sound (h : db.Sound) (deletion : Deletion) : (deletion.leaves db).Sound := by
  cases deletion with
  | repository id =>
    rw [leaves_repository h]
    exact h.removeRepositories _
  | branch id =>
    rw [leaves_branch]
    exact h.removeBranches _
  | session id =>
    rw [leaves_session]
    exact h.removeSessions _

theorem leaves_later (db : Database) (deletion : Deletion) : db.Later (deletion.leaves db) :=
  ⟨.filter _ _, .filter _ _⟩

/-- Where no row has the id, no row is taken. -/
theorem leaves_of_not_names (h : db.Sound) {deletion : Deletion}
    (hnames : deletion.names db = false) : deletion.leaves db = db := by
  cases deletion with
  | repository id =>
    rw [leaves_repository h]
    exact Database.removeRepositories_of_none fun row hrow =>
      Bool.eq_false_iff.mpr (List.any_eq_false.mp hnames row hrow)
  | branch id =>
    rw [leaves_branch]
    exact Database.removeBranches_of_none fun row hrow =>
      Bool.eq_false_iff.mpr (List.any_eq_false.mp hnames row hrow)
  | session id =>
    rw [leaves_session]
    exact Database.removeSessions_of_none fun row hrow =>
      Bool.eq_false_iff.mpr (List.any_eq_false.mp hnames row hrow)

/-- A deletion leaves what it does not take, and fails where no row has the id. -/
theorem perform_eq (h : db.Sound) (path : Option String) (deletion : Deletion) :
    deletion.perform ⟨path, some db⟩ =
      (if deletion.names db = false then .error deletion.absent else .ok (),
        ⟨path, some (deletion.leaves db)⟩) := by
  cases deletion with
  | repository id =>
    rw [leaves_repository h]
    simp only [names, ← count_eq_zero_iff]
    exact deleteRepository_intact h.toIntact path id
  | branch id =>
    rw [leaves_branch]
    simp only [names, ← count_eq_zero_iff]
    exact deleteBranch_intact h.toIntact path id
  | session id =>
    rw [leaves_session]
    simp only [names, ← count_eq_zero_iff]
    exact deleteSession_intact h.toIntact path id

/-- A deletion that fails changes nothing. -/
theorem perform_cases (h : db.Sound) (path : Option String) (deletion : Deletion) :
    deletion.perform ⟨path, some db⟩ =
      if deletion.names db then (.ok (), ⟨path, some (deletion.leaves db)⟩)
      else (.error deletion.absent, ⟨path, some db⟩) := by
  rw [perform_eq h]
  cases hnames : deletion.names db with
  | true => rfl
  | false =>
    rw [leaves_of_not_names h hnames]
    rfl

/-! ## What is owned -/

/-- What a branch owns is taken if the branch is. -/
theorem takesOwned_id (h : db.Sound) (deletion : Deletion) {b : Branch}
    (hb : b ∈ db.branches.rows) : deletion.takesOwned db b.id = deletion.takesBranch b := by
  rw [takesOwned, ← contains_map_filter_eq_any Branch.id fun b => deletion.takesBranch b]
  exact h.contains_removedBranch _ hb

theorem takesOwned_of_stays (h : db.Sound) {deletion : Deletion} {b : Branch}
    (hb : b ∈ db.branches.rows) {branchId : RowId} (hid : b.id = branchId)
    (hstays : deletion.takesBranch b = false) : deletion.takesOwned db branchId = false := by
  rw [← hid, takesOwned_id h deletion hb, hstays]

/-- What a session owns is taken if the session is. -/
theorem takesSessionId_id (h : db.Sound) (deletion : Deletion) {s : SessionRow}
    (hs : s ∈ db.sessions.rows) :
    deletion.takesSessionId db s.id = deletion.takesSession db s := by
  rw [takesSessionId,
    ← contains_map_filter_eq_any SessionRow.id fun s => deletion.takesSession db s]
  exact h.contains_removed hs

theorem history_leaves (db : Database) (deletion : Deletion) (kind : HistoryKind) :
    ((deletion.leaves db).history kind).rows =
      (db.history kind).rows.filter fun e => !deletion.takesOwned db e.branchId := by
  cases kind <;> rfl

end Deletion

end SessionArchive.Store
