import SessionArchive.Proofs.Store.Sound

/-!
# The lifetime of repositories and branches

The row of a repository or a branch never changes. It is added under an id beyond all that were
handed out, it stays through every operation but its deletion, and after that no row has its id
again: `Operation.Turns.leaves` says so of one operation, `Store.play_leaves` of a whole run.
-/

set_option autoImplicit false

namespace SessionArchive

namespace Store

/-! ## Tables at a later time -/

/-- A table at a later time: no id that was handed out by then has been handed out again. -/
structure Table.Later {α : Type} (id : α → RowId) (before after : Table α) : Prop where
  lastId_le : before.lastId ≤ after.lastId
  mem_of_le : ∀ row ∈ after.rows, id row ≤ before.lastId → row ∈ before.rows

namespace Table.Later

variable {α : Type} {id : α → RowId} {before between after : Table α}

theorem refl (table : Table α) : table.Later id table := ⟨Int.le_refl _, fun _ hrow _ => hrow⟩

theorem trans (hfirst : before.Later id between) (hsecond : between.Later id after) :
    before.Later id after := by
  constructor
  · exact Int.le_trans hfirst.lastId_le hsecond.lastId_le
  · intro row hrow hle
    have hbetween := hsecond.mem_of_le row hrow (Int.le_trans hle hfirst.lastId_le)
    exact hfirst.mem_of_le row hbetween hle

theorem filter (table : Table α) (p : α → Bool) :
    table.Later id (table.withRows (table.rows.filter p)) :=
  ⟨Int.le_refl _, fun _ hrow _ => (List.mem_filter.mp hrow).1⟩

theorem add (table : Table α) {row : α} (hid : id row = table.lastId + 1) :
    table.Later id ⟨table.rows ++ [row], table.lastId + 1⟩ := by
  constructor
  · exact Int.le_of_lt (Int.lt_succ _)
  · intro other hother hle
    rcases List.mem_append.mp hother with hother | hother
    · exact hother
    · -- the new row has an id beyond the last one
      rw [List.mem_singleton.mp hother, hid] at hle
      exact absurd hle (Int.not_le.mpr (Int.lt_succ _))

/-- A row that is gone does not come back. -/
theorem mem_between (hfirst : before.Later id between) (hsecond : between.Later id after)
    (hnumbered : before.Numbered id) {row : α} (hrow : row ∈ before.rows)
    (hafter : row ∈ after.rows) : row ∈ between.rows := by
  apply hsecond.mem_of_le row hafter
  exact Int.le_trans (hnumbered.bounded row hrow) hfirst.lastId_le

/-- The id of a row never comes to another row. -/
theorem eq_of_id (h : before.Later id after) (hnumbered : before.Numbered id) {row other : α}
    (hrow : row ∈ before.rows) (hother : other ∈ after.rows) (hid : id other = id row) :
    other = row := by
  have hle : id other ≤ before.lastId := by
    rw [hid]
    exact hnumbered.bounded row hrow
  exact hnumbered.eq_of_id (h.mem_of_le other hother hle) hrow hid

end Table.Later

/-- A database at a later time, as far as repositories and branches go. -/
structure Database.Later (before after : Database) : Prop where
  repositories : before.repositories.Later Repository.id after.repositories
  branches : before.branches.Later Branch.id after.branches

theorem Database.Later.refl (db : Database) : db.Later db := ⟨.refl _, .refl _⟩

theorem Database.Later.trans {before between after : Database} (hfirst : before.Later between)
    (hsecond : between.Later after) : before.Later after :=
  ⟨hfirst.repositories.trans hsecond.repositories, hfirst.branches.trans hsecond.branches⟩

theorem SideChange.later {db after : Database} (hchange : SideChange db after) :
    db.Later after := by
  cases hchange with
  | addRepository host org project hkey => exact ⟨.add _ rfl, .refl _⟩
  | addBranch repositoryId name howner hkey => exact ⟨.refl _, .add _ rfl⟩
  | addEntry kind branchId text now howner => cases kind <;> exact ⟨.refl _, .refl _⟩
  | removeHistory kind p => cases kind <;> exact ⟨.refl _, .refl _⟩

theorem Change.later {db after : Database} (hchange : Change db after) : db.Later after := by
  cases hchange with
  | side hside => exact hside.later
  | writeSession branchId session now howner => exact ⟨.refl _, .refl _⟩
  | removeRepositories p => exact ⟨.filter _ _, .filter _ _⟩
  | removeBranches p => exact ⟨.refl _, .filter _ _⟩
  | removeSessions p => exact ⟨.refl _, .refl _⟩

theorem Changes.later {db after : Database} (hchanges : Changes db after) : db.Later after := by
  induction hchanges with
  | refl => exact .refl _
  | tail _ hchange ih => exact ih.trans hchange.later

/-! ## Changes beside the sessions -/

/-- The sessions and their messages are the same, and no repository or branch is lost. -/
structure Widens (db after : Database) : Prop where
  sessions : after.sessions = db.sessions
  messages : after.messages = db.messages
  branches : ∀ b ∈ db.branches.rows, b ∈ after.branches.rows
  repositories : ∀ r ∈ db.repositories.rows, r ∈ after.repositories.rows

theorem SideChange.widens {db after : Database} (hchange : SideChange db after) :
    Widens db after := by
  cases hchange with
  | addRepository host org project hkey =>
    exact ⟨rfl, rfl, fun _ hb => hb, fun _ hr => List.mem_append_left _ hr⟩
  | addBranch repositoryId name howner hkey =>
    exact ⟨rfl, rfl, fun _ hb => List.mem_append_left _ hb, fun _ hr => hr⟩
  | addEntry kind branchId text now howner =>
    cases kind <;> exact ⟨rfl, rfl, fun _ hb => hb, fun _ hr => hr⟩
  | removeHistory kind p => cases kind <;> exact ⟨rfl, rfl, fun _ hb => hb, fun _ hr => hr⟩

theorem SideChanges.widens {db after : Database} (hchanges : SideChanges db after) :
    Widens db after := by
  induction hchanges with
  | refl => exact ⟨rfl, rfl, fun _ hb => hb, fun _ hr => hr⟩
  | tail _ hchange ih =>
    have hlast := hchange.widens
    exact ⟨hlast.sessions.trans ih.sessions, hlast.messages.trans ih.messages,
      fun b hb => hlast.branches b (ih.branches b hb),
      fun r hr => hlast.repositories r (ih.repositories r hr)⟩

/-! ## Rows that are removed -/

section Removed

variable {db : Database}

/-- A retention pass removes sessions, if perhaps none. -/
theorem Database.exists_removeSessions_expire (db : Database) (now : Int64) (days : Nat) :
    ∃ p, db.expireSessions now days = db.removeSessions p := by
  simp only [Database.expireSessions]
  split
  · exact ⟨fun _ => false, (Database.removeSessions_of_none fun _ _ => rfl).symm⟩
  · exact ⟨_, rfl⟩

theorem Database.exists_removeSessions_trim (db : Database) (keep : Nat) :
    ∃ p, db.trimSessions keep = db.removeSessions p := by
  simp only [Database.trimSessions]
  split
  · exact ⟨fun _ => false, (Database.removeSessions_of_none fun _ _ => rfl).symm⟩
  · exact ⟨_, rfl⟩

/-- The two passes remove sessions, one after the other. -/
theorem Database.exists_removeSessions_cleanup (db : Database) (now : Int64) (days keep : Nat) :
    ∃ p q, (db.expireSessions now days).trimSessions keep =
      (db.removeSessions p).removeSessions q := by
  obtain ⟨p, hexpired⟩ := db.exists_removeSessions_expire now days
  obtain ⟨q, htrimmed⟩ := (db.expireSessions now days).exists_removeSessions_trim keep
  exact ⟨p, q, by rw [htrimmed, hexpired]⟩

/-- A branch's id is among those of the removed ones if the branch is removed. -/
theorem Database.Sound.contains_removedBranch (h : db.Sound) (p : Branch → Bool) {b : Branch}
    (hb : b ∈ db.branches.rows) :
    ((db.branches.rows.filter p).map Branch.id).contains b.id = p b :=
  contains_map_filter hb fun _ hother hid => h.branchIds.eq_of_id hother hb hid

theorem Database.Sound.contains_removedRepository (h : db.Sound) (p : Repository → Bool)
    {r : Repository} (hr : r ∈ db.repositories.rows) :
    ((db.repositories.rows.filter p).map Repository.id).contains r.id = p r :=
  contains_map_filter hr fun _ hother hid => h.repositoryIds.eq_of_id hother hr hid

/-- The repository of a branch is among those of one id if it has that id. -/
theorem Database.Sound.contains_ownRepository (h : db.Sound) {b : Branch}
    (hb : b ∈ db.branches.rows) (id : RowId) :
    ((db.repositories.rows.filter fun r => r.id == id).map Repository.id).contains
      b.repositoryId = (b.repositoryId == id) := by
  obtain ⟨r, hr, howner⟩ := h.branchOwner b hb
  rw [← howner]
  exact h.contains_removedRepository _ hr

end Removed

end Store

/-! ## Which rows an operation leaves -/

open Store (Database)

variable {db : Database}

/-- Which repositories and branches are left by an operation. -/
structure Operation.Leaves (operation : Operation) (db after : Database) : Prop where
  repository : ∀ r ∈ db.repositories.rows,
    (r ∈ after.repositories.rows ↔ operation ≠ .deleteRepository r.id)
  branch : ∀ b ∈ db.branches.rows, (b ∈ after.branches.rows ↔
    operation ≠ .deleteBranch b.id ∧ operation ≠ .deleteRepository b.repositoryId)

/-- An operation that deletes neither repositories nor branches leaves all of them. -/
theorem Operation.leaves_of_subset {operation : Operation} {after : Database}
    (hrepository : ∀ id, operation ≠ .deleteRepository id)
    (hbranch : ∀ id, operation ≠ .deleteBranch id)
    (hrepositories : ∀ r ∈ db.repositories.rows, r ∈ after.repositories.rows)
    (hbranches : ∀ b ∈ db.branches.rows, b ∈ after.branches.rows) :
    operation.Leaves db after := by
  constructor
  · intro r hr
    exact ⟨fun _ => hrepository r.id, fun _ => hrepositories r hr⟩
  · intro b hb
    exact ⟨fun _ => ⟨hbranch b.id, hrepository b.repositoryId⟩, fun _ => hbranches b hb⟩

theorem Operation.leaves_deleteBranch (db : Database) (id : RowId) :
    (Operation.deleteBranch id).Leaves db (db.removeBranches fun b => b.id == id) := by
  constructor
  · intro r hr
    exact ⟨fun _ => nofun, fun _ => hr⟩
  · intro b hb
    show b ∈ db.branches.rows.filter _ ↔ _
    simp [hb, @eq_comm RowId id]

theorem Operation.leaves_deleteRepository (h : db.Sound) (id : RowId) :
    (Operation.deleteRepository id).Leaves db (db.removeRepositories fun r => r.id == id) := by
  constructor
  · intro r hr
    show r ∈ db.repositories.rows.filter _ ↔ _
    simp [hr, @eq_comm RowId id]
  · intro b hb
    obtain ⟨r, hr, howner⟩ := h.branchOwner b hb
    show b ∈ db.branches.rows.filter _ ↔ _
    -- a branch goes if its repository is the one that is deleted
    rw [List.mem_filter]
    dsimp only
    rw [← howner, h.contains_removedRepository _ hr]
    simp [hb, @eq_comm RowId id]

/-- A repository stays through every operation but its own deletion, a branch through every one but
its own and its repository's. -/
theorem Operation.Turns.leaves {now : Int64} {operation : Operation} {after : Database}
    (hturns : operation.Turns now db after) (h : db.Sound) : operation.Leaves db after := by
  cases hturns with
  | beside hquiet hsides =>
    have hwidens := hsides.widens
    refine leaves_of_subset ?_ ?_ hwidens.repositories hwidens.branches
    · rintro id rfl
      cases hquiet
    · rintro id rfl
      cases hquiet
  | saveSession session scope =>
    have hwidens := (db.ensureScope_changes scope).widens
    exact leaves_of_subset nofun nofun hwidens.repositories hwidens.branches
  | deleteSession id => exact leaves_of_subset nofun nofun (fun _ hr => hr) (fun _ hb => hb)
  | deleteBranch id => exact leaves_deleteBranch db id
  | deleteRepository id => exact leaves_deleteRepository h id
  | cleanupSessions maxAgeDays maxSessions =>
    obtain ⟨p, q, hcleaned⟩ := db.exists_removeSessions_cleanup now maxAgeDays maxSessions
    rw [hcleaned]
    exact leaves_of_subset nofun nofun (fun _ hr => hr) (fun _ hb => hb)

theorem Operation.run_leaves (h : db.Sound) (path : Option String) (now : Int64)
    (operation : Operation) :
    ∃ after, (operation.run now ⟨path, some db⟩).2 = ⟨path, some after⟩ ∧ after.Sound ∧
      db.Later after ∧ operation.Leaves db after := by
  obtain ⟨after, hrun, hturns⟩ := operation.run_turns h.toIntact path now
  exact ⟨after, hrun, hturns.changes.sound h, hturns.changes.later, hturns.leaves h⟩

/-! ## Which rows a run leaves -/

/-- Which repositories and branches are left by a run of operations. -/
structure Store.Leaves (run : List (Int64 × Operation)) (db after : Database) : Prop where
  repository : ∀ r ∈ db.repositories.rows,
    (r ∈ after.repositories.rows ↔ ∀ step ∈ run, step.2 ≠ .deleteRepository r.id)
  branch : ∀ b ∈ db.branches.rows, (b ∈ after.branches.rows ↔
    ∀ step ∈ run, step.2 ≠ .deleteBranch b.id ∧ step.2 ≠ .deleteRepository b.repositoryId)

/-- A run leaves what each of its operations leaves. -/
theorem Store.Leaves.cons {now : Int64} {operation : Operation} {rest : List (Int64 × Operation)}
    {between after : Database} (h : db.Sound) (hfirst : db.Later between)
    (hsecond : between.Later after) (hoperation : operation.Leaves db between)
    (hrest : Store.Leaves rest between after) :
    Store.Leaves ((now, operation) :: rest) db after := by
  constructor
  · intro r hr
    rw [List.forall_mem_cons, ← hoperation.repository r hr]
    constructor
    · intro hafter
      have hstays := hfirst.repositories.mem_between hsecond.repositories h.repositoryIds hr hafter
      exact ⟨hstays, (hrest.repository r hstays).mp hafter⟩
    · rintro ⟨hstays, hsteps⟩
      exact (hrest.repository r hstays).mpr hsteps
  · intro b hb
    rw [List.forall_mem_cons, ← hoperation.branch b hb]
    constructor
    · intro hafter
      have hstays := hfirst.branches.mem_between hsecond.branches h.branchIds hb hafter
      exact ⟨hstays, (hrest.branch b hstays).mp hafter⟩
    · rintro ⟨hstays, hsteps⟩
      exact (hrest.branch b hstays).mpr hsteps

/-- A run leads to a later database, where every row is left that was not deleted. -/
theorem Store.play_leaves (h : db.Sound) (path : Option String) (run : List (Int64 × Operation)) :
    ∃ after, (Store.mk path (some db)).play run = ⟨path, some after⟩ ∧ after.Sound ∧
      db.Later after ∧ Store.Leaves run db after := by
  induction run generalizing db with
  | nil =>
    refine ⟨db, rfl, h, .refl db, ?_, ?_⟩
    · intro r hr
      simpa using hr
    · intro b hb
      simpa using hb
  | cons step rest ih =>
    rcases step with ⟨now, operation⟩
    obtain ⟨between, hrun, hbetween, hfirst, hoperation⟩ := operation.run_leaves h path now
    obtain ⟨after, hplay, hafter, hsecond, hrest⟩ := ih hbetween
    refine ⟨after, ?_, hafter, hfirst.trans hsecond, .cons h hfirst hsecond hoperation hrest⟩
    rw [Store.play, hrun]
    exact hplay

end SessionArchive
