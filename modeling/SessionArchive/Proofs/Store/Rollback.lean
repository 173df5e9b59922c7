import SessionArchive.Proofs.Except
import SessionArchive.Proofs.Store.Effect
import SessionArchive.Proofs.Store.Operation
import SessionArchive.Store.Tampering

/-!
# Operations that fail

An operation that fails leaves the store as it was, row by row and counter by counter, whatever
state the tables are in: `Store.unchanged_of_failure`. A sequence of statements that fails is
undone. A deletion that fails because nothing was there is not, and has removed nothing, neither
rows nor what would have belonged to them.
-/

set_option autoImplicit false

namespace SessionArchive

namespace Store

namespace Write

variable {α β : Type} {db after : Database}

/-! ## Statements that succeed -/

theorem bind_ok {write : Write α} {next : α → Write β} {value : β}
    (h : (write >>= next) db = .ok value after) :
    ∃ first between, write db = .ok first between ∧ next first between = .ok value after := by
  change EStateM.bind write next db = _ at h
  simp only [EStateM.bind] at h
  cases hwrite : write db with
  | ok first between =>
    rw [hwrite] at h
    exact ⟨first, between, rfl, h⟩
  | error failure between =>
    rw [hwrite] at h
    cases h

theorem require_ok {table : TableName} {value : Unit} (h : require table db = .ok value after) :
    after = db := by
  simp only [require, get_bind] at h
  split at h
  · cases h
  · cases h
    rfl

theorem requireParent_ok {table : TableName} {value : Unit}
    (h : requireParent table db = .ok value after) : after = db := by
  simp only [requireParent] at h
  cases hparent : table.parent? with
  | none =>
    rw [hparent] at h
    cases h
    rfl
  | some parent =>
    rw [hparent] at h
    simp only [get_bind] at h
    split at h
    · cases h
    · cases h
      rfl

/-- A deletion that succeeds has made its change, and answers by how much the count went down. -/
theorem delete_ok {table : TableName} {count : Database → Nat} {change : Database → Database}
    {answer : Nat} (h : delete table count change db = .ok answer after) :
    after = change db ∧ answer = count db - count (change db) := by
  simp only [delete] at h
  obtain ⟨_, checked, hrows, hchange⟩ := bind_ok h
  simp only [requireRows] at hrows
  obtain ⟨_, found, htable, hparent⟩ := bind_ok hrows
  obtain rfl := require_ok htable
  obtain rfl := requireParent_ok hparent
  simp only [get_bind] at hchange
  split at hchange
  · cases hchange
  · cases hchange
    exact ⟨rfl, rfl⟩

theorem deleteSessions_zero {p : SessionRow → Bool} (h : deleteSessions p db = .ok 0 after) :
    after = db := by
  obtain ⟨rfl, hcount⟩ := delete_ok h
  exact Database.removeSessions_of_none (forall_of_count_eq_zero hcount.symm)

theorem deleteBranches_zero {p : Branch → Bool} (h : deleteBranches p db = .ok 0 after) :
    after = db := by
  obtain ⟨rfl, hcount⟩ := delete_ok h
  exact Database.removeBranches_of_none (forall_of_count_eq_zero hcount.symm)

theorem deleteRepositories_zero {p : Repository → Bool}
    (h : deleteRepositories p db = .ok 0 after) : after = db := by
  obtain ⟨rfl, hcount⟩ := delete_ok h
  exact Database.removeRepositories_of_none (forall_of_count_eq_zero hcount.symm)

end Write

/-! ## Operations that fail -/

section Fails

variable {α : Type} {store : Store} {failure : Failure}

/-- A sequence of statements that fails is undone. -/
theorem mutate_of_error {name : String} {write : Write α}
    (h : (store.mutate name write).1 = .error failure) : (store.mutate name write).2 = store := by
  rcases store with ⟨path, _ | db⟩
  · rfl
  · simp only [Store.mutate, Database.mutate] at h ⊢
    cases hwrite : write db with
    | ok value after =>
      rw [hwrite] at h
      cases h
    | error failure after => rfl

theorem deleteOr_of_error {name : String} {write : Write Nat} {absent : Failure}
    (hzero : ∀ db after, write db = .ok 0 after → after = db)
    (h : (store.deleteOr name write absent).1 = .error failure) :
    (store.deleteOr name write absent).2 = store := by
  rcases store with ⟨path, _ | db⟩
  · rfl
  · simp only [Store.deleteOr, Store.mutate, Database.mutate] at h ⊢
    cases hwrite : write db with
    | ok count after =>
      rw [hwrite] at h
      cases count with
      | zero =>
        -- the deletion is kept, but there was nothing to delete
        obtain rfl := hzero db after hwrite
        rfl
      | succ n => cases h
    | error failure after => rfl

/-- A save answers as its statements do, with the session and the time of the save. -/
theorem saveSession_eq (store : Store) (session : Session) (scope : Scope) (now : Int64) :
    store.saveSession session scope now =
      ((store.mutate "save_session" (Write.saveSession session scope now)).1.map fun _ =>
          { session with lastUpdated := now },
        (store.mutate "save_session" (Write.saveSession session scope now)).2) := by
  simp only [Store.saveSession, Store.saveInPlace]
  rcases store.mutate "save_session" (Write.saveSession session scope now) with ⟨_ | _, after⟩
  · rfl
  · rfl

section Save

variable {session : Session} {scope : Scope} {now : Int64}

theorem saveInPlace_eq_error_iff :
    (store.saveInPlace session scope now).1 = .error failure ↔
      (store.saveSession session scope now).1 = .error failure :=
  map_eq_error_iff.symm

/-- A save that fails leaves both the session of the caller and the store as they were. -/
theorem saveInPlace_of_error (h : (store.saveInPlace session scope now).1 = .error failure) :
    (store.saveInPlace session scope now).2 = (session, store) := by
  cases hresult : store.mutate "save_session" (Write.saveSession session scope now) with
  | mk result after =>
    simp only [Store.saveInPlace, hresult] at h ⊢
    cases result with
    | ok value => cases h
    | error fault =>
      have hstore := mutate_of_error (congrArg Prod.fst hresult)
      rw [hresult] at hstore
      exact Prod.ext rfl hstore

theorem saveSession_of_error (h : (store.saveSession session scope now).1 = .error failure) :
    (store.saveSession session scope now).2 = store :=
  congrArg Prod.snd (saveInPlace_of_error (saveInPlace_eq_error_iff.mpr h))

end Save

theorem appendHistory_of_error {kind : HistoryKind} {scope : Scope} {text : String}
    {maxEntries : Nat} {now : Int64}
    (h : (store.appendHistory kind scope text maxEntries now).1 = .error failure) :
    (store.appendHistory kind scope text maxEntries now).2 = store := by
  simp only [Store.appendHistory, Store.appendTrimming] at h ⊢
  cases hresult : (store.mutate s!"append_{kind.name}"
      (Write.appendHistory kind scope text maxEntries now)).1 with
  | ok count =>
    rw [hresult] at h
    cases h
  | error fault => exact mutate_of_error hresult

theorem clearHistory_of_error {kind : HistoryKind} {scope : Scope}
    (h : (store.clearHistory kind scope).1 = .error failure) :
    (store.clearHistory kind scope).2 = store := by
  simp only [Store.clearHistory] at h ⊢
  cases hfind : store.findScope scope with
  | error fault => rfl
  | ok found =>
    cases found with
    | none => rfl
    | some branch =>
      simp only [hfind] at h
      exact mutate_of_error h

end Fails

end Store

/-- An operation that fails leaves the store as it was. -/
theorem Operation.run_of_error {store : Store} {failure : Failure} {now : Int64}
    {operation : Operation} (h : (operation.run now store).1 = .error failure) :
    (operation.run now store).2 = store := by
  cases operation with
  | read query => rfl
  | resolveRepository host org project => exact Store.mutate_of_error h
  | resolveBranch repositoryId name => exact Store.mutate_of_error h
  | resolveScope scope => exact Store.mutate_of_error h
  | deleteRepository id =>
    exact Store.deleteOr_of_error (fun _ _ => Store.Write.deleteRepositories_zero) h
  | deleteBranch id =>
    exact Store.deleteOr_of_error (fun _ _ => Store.Write.deleteBranches_zero) h
  | saveSession session scope => exact Store.saveSession_of_error h
  | deleteSession id =>
    exact Store.deleteOr_of_error (fun _ _ => Store.Write.deleteSessions_zero) h
  | cleanupSessions maxAgeDays maxSessions =>
    simp only [Operation.run, Store.cleanupSessions] at h ⊢
    split
    · rfl
    · -- only a cleanup with a limit writes, and so can fail
      rename_i hlimits
      rw [if_neg hlimits] at h
      exact Store.mutate_of_error h
  | appendHistory kind scope text maxEntries => exact Store.appendHistory_of_error h
  | clearHistory kind scope => exact Store.clearHistory_of_error h
  | cleanupHistory maxAgeDays =>
    simp only [Operation.run, Store.cleanupHistory] at h ⊢
    split
    · rfl
    · rename_i hlimit
      rw [if_neg hlimit] at h
      exact Store.mutate_of_error h
  | mutate name insertions => exact Store.mutate_of_error h

/-- Whatever state the tables are in, an operation that fails leaves the store as it was, and so
does any sequence of statements; a caller whose save fails keeps its session. -/
theorem Store.unchanged_of_failure (store : Store) (failure : Failure) :
    (∀ (now : Int64) (operation : Operation),
      (operation.run now store).1 = .error failure → (operation.run now store).2 = store) ∧
    (∀ (α : Type) (name : String) (write : Store.Write α),
      (store.mutate name write).1 = .error failure → (store.mutate name write).2 = store) ∧
    (∀ (session : Session) (scope : Scope) (now : Int64),
      (store.saveInPlace session scope now).1 = .error failure →
        (store.saveInPlace session scope now).2 = (session, store)) :=
  ⟨fun _ _ => Operation.run_of_error, fun _ _ _ => Store.mutate_of_error,
    fun _ _ _ => Store.saveInPlace_of_error⟩

/-- A store that holds the session `s`, and where no message gets a second place. -/
def Store.guarded : Store :=
  let saved := (Store.fresh none 0).saveSession
    ⟨"s", 1, 1, "a", "p", "m", "/", [.ofText .user "a" 1]⟩ ⟨"h", "o", "p", "main"⟩ 5
  { saved.2 with database := saved.2.database.map (·.reject ⟨.insert, .messages, some 1⟩) }

/-- A session with two messages, to be saved in the place of the one that is there. -/
def Store.longer : Session :=
  ⟨"s", 1, 5, "a", "p", "m", "/", [.ofText .user "a" 1, .ofText .assistant "b" 2]⟩

/-- The save fails at its second message, when the branch is made, the row of the session is
overwritten and its transcript is gone. -/
theorem Store.unchanged_of_failure_guarded :
    (Store.guarded.mutate "save_session"
        (Store.Write.saveSession Store.longer ⟨"h", "o", "q", "dev"⟩ 6)).1 =
        .error (.transaction "save_session" .rejected) ∧
      (Store.guarded.mutate "save_session"
        (Store.Write.saveSession Store.longer ⟨"h", "o", "q", "dev"⟩ 6)).2 = Store.guarded ∧
      (Store.guarded.saveSession Store.longer ⟨"h", "o", "q", "dev"⟩ 6).1 =
        .error (.transaction "save_session" .rejected) ∧
      (Store.guarded.saveSession Store.longer ⟨"h", "o", "q", "dev"⟩ 6).2 = Store.guarded ∧
      (Store.guarded.saveInPlace Store.longer ⟨"h", "o", "q", "dev"⟩ 6).1 =
        .error (.transaction "save_session" .rejected) ∧
      (Store.guarded.saveInPlace Store.longer ⟨"h", "o", "q", "dev"⟩ 6).2 =
        (Store.longer, Store.guarded) := by
  have hwrite : (Store.guarded.mutate "save_session"
      (Store.Write.saveSession Store.longer ⟨"h", "o", "q", "dev"⟩ 6)).1 =
        .error (.transaction "save_session" .rejected) := by decide +kernel
  have hsave : (Store.guarded.saveSession Store.longer ⟨"h", "o", "q", "dev"⟩ 6).1 =
      .error (.transaction "save_session" .rejected) := by
    rw [Store.saveSession_eq]
    dsimp only
    rw [hwrite]
    rfl
  have hfailed : (Store.guarded.saveInPlace Store.longer ⟨"h", "o", "q", "dev"⟩ 6).1 =
      .error (.transaction "save_session" .rejected) :=
    Store.saveInPlace_eq_error_iff.mpr hsave
  obtain ⟨hoperation, hstatements, hcaller⟩ := Store.unchanged_of_failure Store.guarded
    (.transaction "save_session" .rejected)
  exact ⟨hwrite, hstatements Unit "save_session" _ hwrite, hsave,
    hoperation 6 (.saveSession Store.longer ⟨"h", "o", "q", "dev"⟩) hsave,
    hfailed, hcaller Store.longer ⟨"h", "o", "q", "dev"⟩ 6 hfailed⟩

end SessionArchive
