import SessionArchive.Proofs.Store.Effect
import SessionArchive.Proofs.Store.Operation
import SessionArchive.Proofs.Store.Rollback

/-!
# What every statement keeps

Statements succeed or fail by what they find in the tables, but whatever that is, they do no more
than add rows, put rows in the place of others, and remove rows with all that belongs to them. A
relation that is `Lasting` holds between a database and what each of these makes of it, so it holds
between the databases before and after every operation: `Operation.run_lasting`.
-/

set_option autoImplicit false

namespace SessionArchive

namespace Store

/-- A relation between a database and whatever a statement makes of it. Sessions, messages and
entries may change at will; repositories and branches are added under the next id, or removed. -/
structure Database.Lasting (R : Database → Database → Prop) : Prop where
  refl : ∀ db : Database, R db db
  trans : ∀ {first second third : Database}, R first second → R second third → R first third
  sessions : ∀ (db : Database) (table : Table SessionRow), R db { db with sessions := table }
  messages : ∀ (db : Database) (table : Table MessageRow), R db { db with messages := table }
  history : ∀ (db : Database) (kind : HistoryKind) (table : Table HistoryEntry),
    R db (db.setHistory kind table)
  addRepository : ∀ (db : Database) (host org project : String),
    R db (db.addRepository host org project)
  addBranch : ∀ (db : Database) (repositoryId : RowId) (name : String),
    R db (db.addBranch repositoryId name)
  removeBranches : ∀ (db : Database) (p : Branch → Bool), R db (db.removeBranches p)
  removeRepositories : ∀ (db : Database) (p : Repository → Bool), R db (db.removeRepositories p)

open Database (Lasting)

/-! ## Statements -/

namespace Write

variable {α β : Type} {R : Database → Database → Prop}

/-- The tables after a sequence of statements, or where it stopped. -/
def left (write : Write α) (db : Database) : Database :=
  match write db with
  | .ok _ after => after
  | .error _ after => after

/-- A sequence of statements leaves what is related to what it found. -/
def Keeps (R : Database → Database → Prop) (write : Write α) : Prop :=
  ∀ db : Database, R db (write.left db)

/-- What follows a look at the tables works on the tables that it sees. -/
theorem Keeps.look {next : Database → Write β} (h : ∀ db : Database, R db ((next db).left db)) :
    Keeps R ((get : Write Database) >>= next) := h

section Lasting

variable (hR : Lasting R)

include hR

theorem Keeps.pure (value : α) : Keeps R (Pure.pure value : Write α) := fun db => hR.refl db

theorem Keeps.throw (failure : Failure) : Keeps R (MonadExcept.throw failure : Write α) :=
  fun db => hR.refl db

theorem Keeps.bind {write : Write α} {next : α → Write β} (h : Keeps R write)
    (hnext : ∀ value, Keeps R (next value)) : Keeps R (write >>= next) := by
  intro db
  have hfirst := h db
  change R db (left (EStateM.bind write next) db)
  simp only [left, EStateM.bind] at hfirst ⊢
  cases hwrite : write db with
  | ok value after =>
    rw [hwrite] at hfirst
    exact hR.trans hfirst (hnext value after)
  | error failure after =>
    rw [hwrite] at hfirst
    exact hfirst

/-- A check changes nothing, whether it is passed or not. -/
theorem Keeps.check (p : Database → Bool) (fault : Fault) :
    Keeps R (do if p (← get) then fail fault : Write Unit) := by
  apply Keeps.look
  intro db
  split
  · exact hR.refl db
  · exact hR.refl db

theorem require_keeps (table : TableName) : Keeps R (require table) :=
  Keeps.check hR (·.missing.contains table) _

theorem requireRows_keeps (table : TableName) : Keeps R (requireRows table) := by
  refine Keeps.bind hR (require_keeps hR table) fun _ => ?_
  simp only [requireParent]
  split
  · exact Keeps.pure hR ()
  · exact Keeps.check hR (·.missing.contains _) _

theorem refuseRejected_keeps (event : Event) (table : TableName) (sequence : Option Cell) :
    Keeps R (refuseRejected event table sequence) :=
  Keeps.check hR (·.rejections.any _) _

/-- What every insertion checks first. -/
theorem checked_keeps {table : TableName} {sequence : Option Cell} {write : Write α}
    (h : Keeps R write) :
    Keeps R (do
      requireRows table
      refuseRejected .insert table sequence
      write) :=
  Keeps.bind hR (requireRows_keeps hR table) fun _ =>
    Keeps.bind hR (refuseRejected_keeps hR .insert table sequence) fun _ => h

theorem delete_keeps {table : TableName} {count : Database → Nat}
    {change : Database → Database} (h : ∀ db : Database, R db (change db)) :
    Keeps R (delete table count change) := by
  refine Keeps.bind hR (requireRows_keeps hR table) fun _ => Keeps.look fun db => ?_
  dsimp only
  split
  · exact hR.refl db
  · exact h db

theorem deleteSessions_keeps (p : SessionRow → Bool) : Keeps R (deleteSessions p) :=
  delete_keeps hR fun db =>
    -- the messages go with the sessions
    hR.trans (hR.sessions db (db.sessions.withRows (db.sessions.rows.filter (!p ·))))
      (hR.messages _ (db.removeSessions p).messages)

theorem deleteMessages_keeps (p : MessageRow → Bool) : Keeps R (deleteMessages p) :=
  delete_keeps hR fun db => hR.messages db _

theorem deleteHistory_keeps (kind : HistoryKind) (p : HistoryEntry → Bool) :
    Keeps R (deleteHistory kind p) :=
  delete_keeps hR fun db => hR.history db kind _

theorem insertRepository_keeps (host : Option String) (org project : String) :
    Keeps R (insertRepository host org project) := by
  apply checked_keeps hR
  cases host with
  | none => exact Keeps.throw hR _
  | some host =>
    apply Keeps.look
    intro db
    split
    · exact hR.refl db
    · exact hR.addRepository db host org project

theorem insertBranch_keeps (repositoryId : RowId) (name : String) :
    Keeps R (insertBranch repositoryId name) := by
  apply checked_keeps hR
  apply Keeps.look
  intro db
  split
  · exact hR.addBranch db repositoryId name
  · exact hR.refl db

theorem putSession_keeps (branchId : RowId) (session : Session) (now : Int64) :
    Keeps R (putSession branchId session now) :=
  checked_keeps hR (Keeps.look fun db => hR.sessions db _)

theorem insertMessages_keeps (sessionId : String) (sequence : Nat)
    (messages : List Message) : Keeps R (insertMessages sessionId sequence messages) := by
  induction messages generalizing sequence with
  | nil => exact requireRows_keeps hR .messages
  | cons message rest ih =>
    refine Keeps.bind hR ?_ fun _ => ih (sequence + 1)
    exact checked_keeps hR (Keeps.look fun db => hR.messages db _)

theorem insertHistory_keeps (kind : HistoryKind) (branchId : RowId) (text : String)
    (now : Int64) : Keeps R (insertHistory kind branchId text now) :=
  checked_keeps hR (Keeps.look fun db => hR.history db kind _)

/-! ## Sequences of statements -/

theorem resolveRepository_keeps (host org project : String) :
    Keeps R (resolveRepository host org project) := by
  refine Keeps.bind hR (require_keeps hR .repositories) fun _ => Keeps.look fun db => ?_
  split
  · exact hR.refl db
  · exact insertRepository_keeps hR (some host) org project db

theorem resolveBranch_keeps (repositoryId : RowId) (name : String) :
    Keeps R (resolveBranch repositoryId name) := by
  refine Keeps.bind hR (require_keeps hR .branches) fun _ => Keeps.look fun db => ?_
  split
  · exact hR.refl db
  · exact insertBranch_keeps hR repositoryId name db

theorem resolveScope_keeps (scope : Scope) : Keeps R (resolveScope scope) :=
  Keeps.bind hR (resolveRepository_keeps hR _ _ _) fun id => resolveBranch_keeps hR id _

theorem saveSession_keeps (session : Session) (scope : Scope) (now : Int64) :
    Keeps R (saveSession session scope now) :=
  Keeps.bind hR (resolveScope_keeps hR scope) fun branchId =>
    Keeps.bind hR (putSession_keeps hR branchId session now) fun _ =>
      Keeps.bind hR (deleteMessages_keeps hR _) fun _ =>
        insertMessages_keeps hR session.id 0 session.messages

theorem cleanupSessions_keeps (now : Int64) (maxAgeDays maxSessions : Nat) :
    Keeps R (cleanupSessions now maxAgeDays maxSessions) := by
  rw [cleanupSessions_eq]
  refine Keeps.bind hR ?_ fun expired => Keeps.bind hR ?_ fun overLimit => Keeps.pure hR _
  · split
    · exact Keeps.pure hR 0
    · exact deleteSessions_keeps hR _
  · split
    · exact Keeps.pure hR 0
    · exact Keeps.look fun db => deleteSessions_keeps hR _ db

theorem appendHistory_keeps (kind : HistoryKind) (scope : Scope) (text : String)
    (maxEntries : Nat) (now : Int64) :
    Keeps R (appendHistory kind scope text maxEntries now) := by
  refine Keeps.bind hR (resolveScope_keeps hR scope) fun branchId =>
    Keeps.bind hR (insertHistory_keeps hR kind branchId text now) fun _ => ?_
  split
  · exact Keeps.pure hR 0
  · exact Keeps.look fun db => deleteHistory_keeps hR kind _ db

theorem expireHistory_keeps (now : Int64) (days : Nat) : Keeps R (expireHistory now days) :=
  Keeps.bind hR (deleteHistory_keeps hR .prompt _) fun _ =>
    Keeps.bind hR (deleteHistory_keeps hR .command _) fun _ => Keeps.pure hR _

end Lasting

end Write

end Store

/-! ## Operations -/

open Store (Database Write)

theorem Insertions.write_keeps {R : Database → Database → Prop} (hR : Database.Lasting R)
    (insertions : Insertions) : insertions.write.Keeps R := by
  induction insertions with
  | done answer =>
    cases answer with
    | ok ids => exact Write.Keeps.pure hR ids
    | error failure => exact Write.Keeps.throw hR failure
  | insert host org project next ih =>
    intro db
    have hinsert := Write.insertRepository_keeps hR host org project db
    simp only [Write.left, Insertions.write] at hinsert ⊢
    cases hresult : Write.insertRepository host org project db with
    | ok id after =>
      rw [hresult] at hinsert
      exact hR.trans hinsert (ih (.ok id) after)
    | error failure after =>
      rw [hresult] at hinsert
      exact hR.trans hinsert (ih (.error failure) after)

namespace Store

/-- Two handles are on the same file, both open or both closed, and what they hold is related. -/
inductive SameHandle (R : Database → Database → Prop) : Store → Store → Prop
  | closed (path : Option String) : SameHandle R ⟨path, none⟩ ⟨path, none⟩
  | held (path : Option String) {db after : Database} (h : R db after) :
      SameHandle R ⟨path, some db⟩ ⟨path, some after⟩

section Handles

variable {α : Type} {R : Database → Database → Prop} (hR : Database.Lasting R)

include hR

theorem SameHandle.refl (store : Store) : SameHandle R store store := by
  rcases store with ⟨path, _ | db⟩
  · exact .closed path
  · exact .held path (hR.refl db)

theorem mutate_keeps_handle (store : Store) (name : String) {write : Write α}
    (h : write.Keeps R) : SameHandle R store (store.mutate name write).2 := by
  rcases store with ⟨path, _ | db⟩
  · exact .closed path
  · have hleft := h db
    simp only [Write.left] at hleft
    simp only [Store.mutate, Database.mutate]
    cases hresult : write db with
    | ok value after =>
      rw [hresult] at hleft
      exact .held path hleft
    | error failure after => exact .held path (hR.refl db)

theorem deleteOr_keeps_handle (store : Store) (name : String) {write : Write Nat}
    (h : write.Keeps R) (absent : Failure) :
    SameHandle R store (store.deleteOr name write absent).2 := by
  have hsame : (store.deleteOr name write absent).2 = (store.mutate name write).2 := by
    simp only [Store.deleteOr]
    rcases store.mutate name write with ⟨_ | _ | _, after⟩ <;> rfl
  rw [hsame]
  exact store.mutate_keeps_handle hR name h

theorem clearHistory_keeps_handle (store : Store) (kind : HistoryKind) (scope : Scope) :
    SameHandle R store (store.clearHistory kind scope).2 := by
  simp only [Store.clearHistory]
  split
  · exact .refl hR store
  · exact .refl hR store
  · exact store.mutate_keeps_handle hR _ (Write.deleteHistory_keeps hR kind _)

end Handles

end Store

/-- An operation leaves a handle on the same file, open or closed as it was, and what it holds
related to what it held. -/
theorem Operation.run_lasting {R : Database → Database → Prop} (hR : Database.Lasting R)
    (operation : Operation) (now : Int64) (store : Store) :
    Store.SameHandle R store (operation.run now store).2 := by
  cases operation with
  | read query => exact .refl hR store
  | resolveRepository host org project =>
    exact store.mutate_keeps_handle hR _ (Write.resolveRepository_keeps hR host org project)
  | resolveBranch repositoryId name =>
    exact store.mutate_keeps_handle hR _ (Write.resolveBranch_keeps hR repositoryId name)
  | resolveScope scope =>
    exact store.mutate_keeps_handle hR _ (Write.resolveScope_keeps hR scope)
  | deleteRepository id =>
    exact store.deleteOr_keeps_handle hR _
      (Write.delete_keeps hR fun db => hR.removeRepositories db _) _
  | deleteBranch id =>
    exact store.deleteOr_keeps_handle hR _
      (Write.delete_keeps hR fun db => hR.removeBranches db _) _
  | saveSession session scope =>
    show Store.SameHandle R store (store.saveSession session scope now).2
    rw [Store.saveSession_eq]
    exact store.mutate_keeps_handle hR _ (Write.saveSession_keeps hR session scope now)
  | deleteSession id =>
    exact store.deleteOr_keeps_handle hR _ (Write.deleteSessions_keeps hR _) _
  | cleanupSessions maxAgeDays maxSessions =>
    simp only [Operation.run, Store.cleanupSessions]
    split
    · exact .refl hR store
    · exact store.mutate_keeps_handle hR _
        (Write.cleanupSessions_keeps hR now maxAgeDays maxSessions)
  | appendHistory kind scope text maxEntries =>
    exact store.mutate_keeps_handle hR _
      (Write.appendHistory_keeps hR kind scope text maxEntries now)
  | clearHistory kind scope => exact store.clearHistory_keeps_handle hR kind scope
  | cleanupHistory maxAgeDays =>
    simp only [Operation.run, Store.cleanupHistory]
    split
    · exact .refl hR store
    · exact store.mutate_keeps_handle hR _ (Write.expireHistory_keeps hR now maxAgeDays)
  | mutate name insertions =>
    exact store.mutate_keeps_handle hR name (insertions.write_keeps hR)

end SessionArchive
