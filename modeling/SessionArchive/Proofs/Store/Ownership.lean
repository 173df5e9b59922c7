import SessionArchive.Proofs.Store.Census
import SessionArchive.Proofs.Store.Remaining

/-!
# Deletion by ownership

`Store.deletion_play` says that after every run a deletion leaves all rows but the one that it names
and those that belong to it, or fails and changes nothing where no row has the id, and that all
reads then answer what they did before, less the rows that were taken.
-/

set_option autoImplicit false

namespace SessionArchive

namespace Store

namespace Deletion

variable {db : Database}

/-! ## What stays is read as before -/

theorem loadSession_leaves (h : db.Sound) (deletion : Deletion) {s : SessionRow}
    (hs : s ∈ db.sessions.rows) :
    (deletion.leaves db).loadSession s.id =
      if deletion.takesSession db s then .error (.sessionNotFound s.id)
      else db.loadSession s.id := by
  have hafter := leaves_sound h deletion
  split
  · rename_i htaken
    apply hafter.toIntact.loadSession_absent
    intro t ht hid
    obtain ⟨ht, hstays⟩ := List.mem_filter.mp ht
    rw [h.session_eq ht hs hid, htaken] at hstays
    cases hstays
  · rename_i hstays
    have hhas := h.has_leaves hs (by simpa using hstays)
    exact h.loadSession_of_has hafter (leaves_later db deletion) hs hhas

theorem summaries_leaves (h : db.Sound) (deletion : Deletion) :
    (deletion.leaves db).summaries =
      db.summaries.filter fun s => !deletion.takesSessionId db s.id := by
  refine h.summaries_of_has (leaves_sound h deletion) (leaves_later db deletion) rfl ?_ ?_
  · intro row hrow hstays
    exact h.has_leaves hrow (by simpa using hstays)
  · intro row hrow s hsummary
    rw [(Database.summary?_fields hsummary).1, takesSessionId_id h deletion hrow]

theorem listRepositories_leaves (db : Database) (deletion : Deletion) :
    (deletion.leaves db).repositories.rows.mergeSort Database.repositoryLe =
      (db.repositories.rows.mergeSort Database.repositoryLe).filter fun r =>
        !deletion.takesRepository r :=
  mergeSort_filter isOrder_repositoryLe _ _

theorem listBranches_leaves (db : Database) (deletion : Deletion) (id : RowId) :
    ((deletion.leaves db).branches.rows.filter fun b => b.repositoryId == id).mergeSort
        (fun a b => a.name ≤ b.name) =
      ((db.branches.rows.filter fun b => b.repositoryId == id).mergeSort
        fun a b => a.name ≤ b.name).filter fun b => !deletion.takesBranch b := by
  have hrows : ((deletion.leaves db).branches.rows.filter fun b => b.repositoryId == id) =
      (db.branches.rows.filter fun b => b.repositoryId == id).filter fun b =>
        !deletion.takesBranch b := by
    show (db.branches.rows.filter _).filter _ = _
    simp only [List.filter_filter, Bool.and_comm]
  rw [hrows]
  exact mergeSort_filter isOrder_name _ _

/-! ## All reads -/

/-- What a store answers after a deletion, by what it answered before. -/
structure Reads (deletion : Deletion) (db : Database) (before after : Store) : Prop where
  loadSession : ∀ s ∈ db.sessions.rows, after.loadSession s.id =
    if deletion.takesSession db s then .error (.sessionNotFound s.id) else before.loadSession s.id
  listAllSessions : ∃ all, ∀ limit,
    before.listAllSessions limit = .ok (Database.limited limit all) ∧
    after.listAllSessions limit =
      .ok (Database.limited limit (all.filter fun s => !deletion.takesSessionId db s.id))
  listSessions : ∀ scope, ∃ all, ∀ limit,
    before.listSessions scope limit = .ok (Database.limited limit all) ∧
    after.listSessions scope limit =
      .ok (Database.limited limit (all.filter fun s => !deletion.takesSessionId db s.id))
  listRepositories : ∃ all, before.listRepositories = .ok all ∧
    after.listRepositories = .ok (all.filter fun r => !deletion.takesRepository r)
  listBranches : ∀ id, ∃ all, before.listBranches id = .ok all ∧
    after.listBranches id = .ok (all.filter fun b => !deletion.takesBranch b)
  findScope : ∀ r ∈ db.repositories.rows, ∀ b ∈ db.branches.rows, r.id = b.repositoryId →
    before.findScope (r.scope b) = .ok (some b) ∧
    after.findScope (r.scope b) = .ok (if deletion.takesBranch b then none else some b)
  scopes : ∀ scope, ∃ found, before.findScope scope = .ok found ∧
    after.findScope scope = .ok (found.filter fun b => !deletion.takesBranch b) ∧
    ∀ kind limit, after.loadHistory kind scope limit =
      if found.any fun b => deletion.takesBranch b then .ok []
      else before.loadHistory kind scope limit

theorem reads_leaves (h : db.Sound) (path : Option String) (deletion : Deletion) :
    deletion.Reads db ⟨path, some db⟩ ⟨path, some (deletion.leaves db)⟩ := by
  have hafter := (leaves_sound h deletion).toIntact
  constructor
  case loadSession =>
    intro s hs
    exact loadSession_leaves h deletion hs
  case listAllSessions =>
    refine ⟨db.summaries, fun limit => ⟨h.toIntact.listAllSessions_limited limit, ?_⟩⟩
    rw [← summaries_leaves h]
    exact hafter.listAllSessions_limited limit
  case listSessions =>
    intro scope
    refine ⟨_, fun limit => ⟨h.toIntact.listSessions_limited scope limit, ?_⟩⟩
    refine (hafter.listSessions_limited scope limit).trans ?_
    simp only [summaries_leaves h, List.filter_filter, Bool.and_comm]
  case listRepositories =>
    refine ⟨_, (h.toIntact.census path).listRepositories, ?_⟩
    refine (hafter.census path).listRepositories.trans ?_
    exact congrArg Except.ok (listRepositories_leaves db deletion)
  case listBranches =>
    intro id
    refine ⟨_, (h.toIntact.census path).listBranches id, ?_⟩
    refine ((hafter.census path).listBranches id).trans ?_
    exact congrArg Except.ok (listBranches_leaves db deletion id)
  case findScope =>
    intro r hr b hb howner
    have hfound : db.findScope? (r.scope b) = some b :=
      h.findScope?_eq_some_iff.mpr ⟨hb, r, hr, howner, rfl⟩
    constructor
    · rw [← hfound]
      exact h.toIntact.findScope_eq _
    · refine (hafter.findScope_eq _).trans ?_
      rw [h.findScope?_leaves, hfound, Option.filter]
      cases deletion.takesBranch b <;> rfl
  case scopes =>
    intro scope
    refine ⟨db.findScope? scope, h.toIntact.findScope_eq scope, ?_, ?_⟩
    · rw [← h.findScope?_leaves]
      exact hafter.findScope_eq scope
    · intro kind limit
      refine (hafter.loadHistory_eq kind scope limit).trans ?_
      rw [h.entriesOf_leaves]
      split
      · simp [latestFirst, Database.limited]
      · exact (h.toIntact.loadHistory_eq kind scope limit).symm

end Deletion

/-- After every run a deletion takes the row that it names with all that belongs to it and leaves
every other row of every table as it is; where no row has the id it fails so and changes nothing.
What was taken is not found any more, and all else is read as before. -/
theorem deletion_play (path : Option String) (start : Int64) (run : List (Int64 × Operation))
    (deletion : Deletion) :
    let store := (Store.fresh path start).play run
    ∃ db, store = ⟨path, some db⟩ ∧
      deletion.perform store =
        (if deletion.names db then (.ok (), ⟨path, some (deletion.leaves db)⟩)
        else (.error deletion.absent, store)) ∧
      deletion.Reads db store (deletion.perform store).2 := by
  obtain ⟨db, hplay, h⟩ := play_sound path start run
  rw [hplay]
  refine ⟨db, rfl, Deletion.perform_cases h path deletion, ?_⟩
  rw [Deletion.perform_eq h]
  exact Deletion.reads_leaves h path deletion

end Store

end SessionArchive
