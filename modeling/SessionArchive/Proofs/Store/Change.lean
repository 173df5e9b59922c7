import Mathlib.Logic.Relation
import SessionArchive.Proofs.Store.Effect
import SessionArchive.Proofs.Store.Operation

/-!
# Changes of a database

A `Change` is the least that happens to a database: a session is written, rows are removed with all
that belongs to them, or, as a `SideChange`, something happens beside the sessions.
`Operation.run_turns` says once what an operation on an intact database, whether it succeeds or not,
can turn it into, and `Operation.run_changes` that this is a sequence of changes away, so what each
change keeps, every run keeps.
-/

set_option autoImplicit false

namespace SessionArchive.Store

/-! ## Changes -/

/-- A step that leaves the sessions and their messages alone: it adds a repository, a branch or an
entry, or removes entries. -/
inductive SideChange : Database → Database → Prop
  | addRepository {db : Database} (host org project : String)
      (hkey : db.findRepository? host org project = none) :
      SideChange db (db.addRepository host org project)
  | addBranch {db : Database} (repositoryId : RowId) (name : String)
      (howner : ∃ r ∈ db.repositories.rows, r.id = repositoryId)
      (hkey : db.findBranch? repositoryId name = none) :
      SideChange db (db.addBranch repositoryId name)
  | addEntry {db : Database} (kind : HistoryKind) (branchId : RowId) (text : String) (now : Int64)
      (howner : ∃ b ∈ db.branches.rows, b.id = branchId) :
      SideChange db (db.addEntry kind branchId text now)
  | removeHistory {db : Database} (kind : HistoryKind) (p : HistoryEntry → Bool) :
      SideChange db (db.removeHistory kind p)

/-- What one operation does to a database, step by step. -/
inductive Change : Database → Database → Prop
  | side {db after : Database} (hside : SideChange db after) : Change db after
  | writeSession {db : Database} (branchId : RowId) (session : Session) (now : Int64)
      (howner : ∃ b ∈ db.branches.rows, b.id = branchId) :
      Change db (db.writeSession branchId session now)
  | removeRepositories {db : Database} (p : Repository → Bool) : Change db (db.removeRepositories p)
  | removeBranches {db : Database} (p : Branch → Bool) : Change db (db.removeBranches p)
  | removeSessions {db : Database} (p : SessionRow → Bool) : Change db (db.removeSessions p)

/-- Any number of steps that leave the sessions alone, one after another. -/
abbrev SideChanges : Database → Database → Prop := Relation.ReflTransGen SideChange

/-- Any number of changes, one after another. -/
abbrev Changes : Database → Database → Prop := Relation.ReflTransGen Change

theorem SideChanges.changes {db after : Database} (hchanges : SideChanges db after) :
    Changes db after := by
  induction hchanges with
  | refl => exact .refl
  | tail _ hside ih => exact ih.tail (.side hside)

namespace Database

variable {db : Database}

theorem ensureRepository_changes (db : Database) (host org project : String) :
    SideChanges db (db.ensureRepository host org project).2 := by
  simp only [ensureRepository]
  cases hfind : db.findRepository? host org project with
  | some repository => exact .refl
  | none => exact .single (.addRepository host org project hfind)

theorem ensureBranch_changes (repositoryId : RowId) (name : String)
    (howner : ∃ r ∈ db.repositories.rows, r.id = repositoryId) :
    SideChanges db (db.ensureBranch repositoryId name).2 := by
  simp only [ensureBranch]
  cases hfind : db.findBranch? repositoryId name with
  | some branch => exact .refl
  | none => exact .single (.addBranch repositoryId name howner hfind)

theorem ensureScope_changes (db : Database) (scope : Scope) :
    SideChanges db (db.ensureScope scope).2 := by
  obtain ⟨r, hr, heq⟩ := db.exists_ensureRepository scope.host scope.org scope.project
  exact (ensureRepository_changes db _ _ _).trans
    (ensureBranch_changes _ _ ⟨r, hr, congrArg Repository.id heq⟩)

/-- The branch of a scope that is made sure of is there, under the repository of the scope. -/
theorem exists_ensureScope (db : Database) (scope : Scope) :
    ∃ b ∈ (db.ensureScope scope).2.branches.rows, ∃ r ∈ (db.ensureScope scope).2.repositories.rows,
      b.id = (db.ensureScope scope).1 ∧ r.id = b.repositoryId ∧
        scope = ⟨r.host, r.org, r.project, b.name⟩ := by
  obtain ⟨r, hr, hrepository⟩ :=
    db.exists_ensureRepository scope.host scope.org scope.project
  obtain ⟨b, hb, hbranch⟩ := exists_ensureBranch
    (db.ensureRepository scope.host scope.org scope.project).2
    (db.ensureRepository scope.host scope.org scope.project).1 scope.branch
  refine ⟨b, hb, r, ?_, congrArg Branch.id hbranch, by rw [hrepository, hbranch],
    by rw [hrepository, hbranch]⟩
  rw [ensureScope, ensureBranch_repositories]
  exact hr

theorem ensureScope_owner (db : Database) (scope : Scope) :
    ∃ b ∈ (db.ensureScope scope).2.branches.rows, b.id = (db.ensureScope scope).1 := by
  obtain ⟨b, hb, _, _, hid, _⟩ := exists_ensureScope db scope
  exact ⟨b, hb, hid⟩

end Database

/-! ## Operations as changes -/

namespace Write

variable {db after : Database}

/-- What each addition of a repository keeps, insertions keep. -/
theorem insertions_keep {keeps : Database → Prop}
    (hadd : ∀ (db : Database) (host org project : String), keeps db →
      db.findRepository? host org project = none → keeps (db.addRepository host org project))
    (insertions : Insertions) (h : db.Intact) (hdb : keeps db) {ids : List RowId}
    (hwrite : insertions.write db = .ok ids after) : keeps after := by
  induction insertions generalizing db with
  | done answer =>
    cases answer with
    | ok value =>
      cases hwrite
      exact hdb
    | error failure => cases hwrite
  | insert host org project next ih =>
    simp only [Insertions.write] at hwrite
    rw [insertRepository_intact h] at hwrite
    cases host with
    | none => exact ih _ h hdb hwrite
    | some host =>
      -- an insertion that fails leaves the tables alone, and the next one follows all the same
      by_cases hkey : (db.findRepository? host org project).isSome
      · simp only [hkey, if_true] at hwrite
        exact ih _ h hdb hwrite
      · simp only [hkey, if_false, Bool.false_eq_true] at hwrite
        have hnone : db.findRepository? host org project = none := by simpa using hkey
        exact ih _ (Database.addRepository_intact h host org project)
          (hadd db host org project hdb hnone) hwrite

theorem insertions_changes (insertions : Insertions) (h : db.Intact) {ids : List RowId}
    (hwrite : insertions.write db = .ok ids after) : SideChanges db after :=
  insertions_keep (fun _ host org project hchanges hkey =>
    hchanges.tail (.addRepository host org project hkey)) insertions h .refl hwrite

theorem resolveBranch_changes (h : db.Intact) (repositoryId : RowId) (name : String) {id : RowId}
    (hwrite : resolveBranch repositoryId name db = .ok id after) : SideChanges db after := by
  rw [resolveBranch_intact h] at hwrite
  split at hwrite
  · rename_i hcond
    cases hwrite
    -- a branch that is there already changes nothing
    cases hfind : db.findBranch? repositoryId name with
    | some branch =>
      simp only [Database.ensureBranch, hfind]
      exact .refl
    | none =>
      apply Database.ensureBranch_changes repositoryId name
      simpa [hfind] using hcond
  · cases hwrite

end Write

namespace Database

variable {db : Database}

theorem expireSessions_changes (db : Database) (now : Int64) (days : Nat) :
    Changes db (db.expireSessions now days) := by
  simp only [expireSessions]
  split
  · exact .refl
  · exact .single (.removeSessions _)

theorem trimSessions_changes (db : Database) (keep : Nat) : Changes db (db.trimSessions keep) := by
  simp only [trimSessions]
  split
  · exact .refl
  · exact .single (.removeSessions _)

theorem expireHistory_changes (db : Database) (now : Int64) (days : Nat) :
    SideChanges db (db.expireHistory now days) :=
  .tail (.single (.removeHistory .prompt _)) (.removeHistory .command _)

theorem appendHistory_changes (db : Database) (kind : HistoryKind) (scope : Scope) (text : String)
    (maxEntries : Nat) (now : Int64) :
    SideChanges db (db.appendHistory kind scope text maxEntries now) := by
  have hadded := (ensureScope_changes db scope).tail
    (.addEntry kind (db.ensureScope scope).1 text now (ensureScope_owner db scope))
  simp only [appendHistory]
  split
  · exact hadded
  · exact hadded.tail (.removeHistory kind _)

end Database

end SessionArchive.Store

namespace SessionArchive

open Store (Database Write Changes SideChanges)

namespace Store

variable {α : Type} {db : Database}

theorem eq_of_left {store : Store} {path : Option String} {after other : Database}
    (hafter : store = ⟨path, some after⟩) (hother : store = ⟨path, some other⟩) :
    other = after := by
  rw [hafter] at hother
  cases hother
  rfl

/-- What a sequence of statements keeps if it succeeds, it keeps. -/
theorem mutate_keeps {keeps : Database → Prop} {write : Write α} (hdb : keeps db)
    (hwrite : ∀ value after, write db = .ok value after → keeps after) (path : Option String)
    (name : String) :
    ∃ after, (Store.mutate ⟨path, some db⟩ name write).2 = ⟨path, some after⟩ ∧ keeps after := by
  cases hrun : write db with
  | ok value after =>
    refine ⟨after, ?_, hwrite value after hrun⟩
    simp [Store.mutate, Database.mutate, hrun]
  | error failure after =>
    -- what a failed sequence did is undone
    refine ⟨db, ?_, hdb⟩
    simp [Store.mutate, Database.mutate, hrun]

theorem mutate_of_ok {write : Write α} {value : α} {after : Database}
    (hwrite : write db = .ok value after) (path : Option String) (name : String) :
    Store.mutate ⟨path, some db⟩ name write = (.ok value, ⟨path, some after⟩) := by
  simp [Store.mutate, Database.mutate, hwrite]

/-- Appending on an intact database succeeds. -/
theorem appendHistory_intact (h : db.Intact) (path : Option String) (kind : HistoryKind)
    (scope : Scope) (text : String) (maxEntries : Nat) (now : Int64) :
    Store.appendHistory ⟨path, some db⟩ kind scope text maxEntries now =
      (.ok (), ⟨path, some (db.appendHistory kind scope text maxEntries now)⟩) := by
  obtain ⟨count, hwrite⟩ := Write.appendHistory_intact h kind scope text maxEntries now
  rw [Store.appendHistory, Store.appendTrimming, mutate_of_ok hwrite]
  rfl

theorem cleanupHistory_intact (h : db.Intact) (path : Option String) (maxAgeDays : Nat)
    (now : Int64) :
    let after := if maxAgeDays = 0 then db else db.expireHistory now maxAgeDays
    Store.cleanupHistory ⟨path, some db⟩ maxAgeDays now =
      (.ok (db.prompts.rows.length - after.prompts.rows.length +
        (db.commands.rows.length - after.commands.rows.length)), ⟨path, some after⟩) := by
  dsimp only
  rw [Store.cleanupHistory]
  split
  · simp only [Nat.sub_self, Nat.add_zero]
  · exact mutate_of_ok (Write.expireHistory_intact h now maxAgeDays) path _

theorem deleteOr_of_ok {write : Write Nat} {count : Nat} {after : Database}
    (hwrite : write db = .ok count after) (path : Option String) (name : String)
    (absent : Failure) :
    Store.deleteOr ⟨path, some db⟩ name write absent =
      (if count = 0 then .error absent else .ok (), ⟨path, some after⟩) := by
  simp only [Store.deleteOr]
  rw [mutate_of_ok hwrite]
  cases count with
  | zero => rfl
  | succ n => rfl

/-- Saving on an intact database succeeds. -/
theorem saveSession_intact (h : db.Intact) (path : Option String) (session : Session)
    (scope : Scope) (now : Int64) :
    Store.saveSession ⟨path, some db⟩ session scope now =
      (.ok { session with lastUpdated := now },
        ⟨path, some
          ((db.ensureScope scope).2.writeSession (db.ensureScope scope).1 session now)⟩) := by
  simp only [Store.saveSession, Store.saveInPlace]
  rw [mutate_of_ok (Write.saveSession_intact h session scope now)]
  rfl

/-- Deleting fails where there is nothing to delete. -/
theorem deleteSession_intact (h : db.Intact) (path : Option String) (id : String) :
    let after := db.removeSessions fun s => s.id == id
    Store.deleteSession ⟨path, some db⟩ id =
      (if db.sessions.rows.length - after.sessions.rows.length = 0 then
        .error (.sessionNotFound id) else .ok (), ⟨path, some after⟩) :=
  deleteOr_of_ok (Write.deleteSessions_intact h _) path _ _

theorem deleteBranch_intact (h : db.Intact) (path : Option String) (id : RowId) :
    let after := db.removeBranches fun b => b.id == id
    Store.deleteBranch ⟨path, some db⟩ id =
      (if db.branches.rows.length - after.branches.rows.length = 0 then
        .error (.branchNotFound (toString id)) else .ok (), ⟨path, some after⟩) :=
  deleteOr_of_ok (Write.deleteBranches_intact h _) path _ _

theorem deleteRepository_intact (h : db.Intact) (path : Option String) (id : RowId) :
    let after := db.removeRepositories fun r => r.id == id
    Store.deleteRepository ⟨path, some db⟩ id =
      (if db.repositories.rows.length - after.repositories.rows.length = 0 then
        .error (.repositoryNotFound (toString id)) else .ok (), ⟨path, some after⟩) :=
  deleteOr_of_ok (Write.deleteRepositories_intact h _) path _ _

/-- The retention pass succeeds; without limits it is no different from doing nothing. -/
theorem cleanupSessions_intact (h : db.Intact) (path : Option String)
    (maxAgeDays maxSessions : Nat) (now : Int64) :
    let expired := db.expireSessions now maxAgeDays
    let trimmed := expired.trimSessions maxSessions
    Store.cleanupSessions ⟨path, some db⟩ maxAgeDays maxSessions now =
      (.ok ⟨db.sessions.rows.length - expired.sessions.rows.length,
        expired.sessions.rows.length - trimmed.sessions.rows.length⟩, ⟨path, some trimmed⟩) := by
  simp only [Store.cleanupSessions]
  split
  · rename_i hnone
    simp [hnone.1, hnone.2, Database.expireSessions, Database.trimSessions]
  · exact mutate_of_ok (Write.cleanupSessions_intact h now maxAgeDays maxSessions) path _

end Store

namespace Operation

/-- Whether an operation is one of those that write or remove sessions. -/
def touchesSessions : Operation → Bool
  | .saveSession .. => true
  | .deleteSession _ => true
  | .deleteBranch _ => true
  | .deleteRepository _ => true
  | .cleanupSessions .. => true
  | _ => false

variable {db : Database}

/-- All other operations, successful or not, make side changes. -/
theorem run_sideChanges (h : db.Intact) (path : Option String) (now : Int64)
    (operation : Operation) (hside : operation.touchesSessions = false) :
    ∃ after, (operation.run now ⟨path, some db⟩).2 = ⟨path, some after⟩ ∧
      SideChanges db after := by
  cases operation with
  | read query => exact ⟨db, rfl, .refl⟩
  | resolveRepository host org project =>
    refine Store.mutate_keeps .refl (fun id after hwrite => ?_) path _
    rw [Write.resolveRepository_intact h] at hwrite
    cases hwrite
    exact Database.ensureRepository_changes db host org project
  | resolveBranch repositoryId name =>
    exact Store.mutate_keeps .refl
      (fun id after => Write.resolveBranch_changes h repositoryId name) path _
  | resolveScope scope =>
    refine Store.mutate_keeps .refl (fun id after hwrite => ?_) path _
    rw [Write.resolveScope_intact h] at hwrite
    cases hwrite
    exact Database.ensureScope_changes db scope
  | appendHistory kind scope text maxEntries =>
    exact ⟨db.appendHistory kind scope text maxEntries now,
      congrArg Prod.snd (Store.appendHistory_intact h path kind scope text maxEntries now),
      Database.appendHistory_changes db kind scope text maxEntries now⟩
  | clearHistory kind scope =>
    show ∃ after, (Store.clearHistory _ _ _).2 = _ ∧ _
    simp only [Store.clearHistory]
    -- the scope is not read, is not there, or has its entries removed
    split
    · exact ⟨db, rfl, .refl⟩
    · exact ⟨db, rfl, .refl⟩
    · rename_i branch hbranch
      rw [Write.clearHistory, Store.mutate_of_ok (Write.deleteHistory_intact h kind _)]
      exact ⟨_, rfl, .single (.removeHistory kind _)⟩
  | cleanupHistory maxAgeDays =>
    have hcleanup := Store.cleanupHistory_intact h path maxAgeDays now
    refine ⟨_, congrArg Prod.snd hcleanup, ?_⟩
    split
    · exact .refl
    · exact Database.expireHistory_changes db now maxAgeDays
  | mutate name insertions =>
    exact Store.mutate_keeps .refl
      (fun ids after => Write.insertions_changes insertions h) path name
  | _ => cases hside

/-- What an operation turns a database into, as far as the sessions go. -/
inductive Turns (now : Int64) (db : Database) : Operation → Database → Prop
  | beside {operation : Operation} {after : Database}
      (hquiet : operation.touchesSessions = false) (hsides : SideChanges db after) :
      Turns now db operation after
  | saveSession (session : Session) (scope : Scope) :
      Turns now db (.saveSession session scope)
        ((db.ensureScope scope).2.writeSession (db.ensureScope scope).1 session now)
  | deleteSession (id : String) :
      Turns now db (.deleteSession id) (db.removeSessions fun s => s.id == id)
  | deleteBranch (id : RowId) :
      Turns now db (.deleteBranch id) (db.removeBranches fun b => b.id == id)
  | deleteRepository (id : RowId) :
      Turns now db (.deleteRepository id) (db.removeRepositories fun r => r.id == id)
  | cleanupSessions (maxAgeDays maxSessions : Nat) :
      Turns now db (.cleanupSessions maxAgeDays maxSessions)
        ((db.expireSessions now maxAgeDays).trimSessions maxSessions)

/-- Every operation on an intact database, successful or not, turns it into another one. -/
theorem run_turns (h : db.Intact) (path : Option String) (now : Int64) (operation : Operation) :
    ∃ after, (operation.run now ⟨path, some db⟩).2 = ⟨path, some after⟩ ∧
      operation.Turns now db after := by
  cases htouches : operation.touchesSessions with
  | false =>
    obtain ⟨after, hrun, hsides⟩ := run_sideChanges h path now operation htouches
    exact ⟨after, hrun, .beside htouches hsides⟩
  | true =>
    cases operation with
    | saveSession session scope =>
      exact ⟨_, congrArg Prod.snd (Store.saveSession_intact h path session scope now),
        .saveSession session scope⟩
    | deleteSession id =>
      exact ⟨_, congrArg Prod.snd (Store.deleteSession_intact h path id), .deleteSession id⟩
    | deleteBranch id =>
      exact ⟨_, congrArg Prod.snd (Store.deleteBranch_intact h path id), .deleteBranch id⟩
    | deleteRepository id =>
      exact ⟨_, congrArg Prod.snd (Store.deleteRepository_intact h path id), .deleteRepository id⟩
    | cleanupSessions maxAgeDays maxSessions =>
      exact ⟨_, congrArg Prod.snd (Store.cleanupSessions_intact h path maxAgeDays maxSessions now),
        .cleanupSessions maxAgeDays maxSessions⟩
    | _ => cases htouches

theorem turns_of_run (h : db.Intact) {path : Option String} {now : Int64} {operation : Operation}
    {after : Database} (hrun : (operation.run now ⟨path, some db⟩).2 = ⟨path, some after⟩) :
    operation.Turns now db after := by
  obtain ⟨other, hother, hturns⟩ := operation.run_turns h path now
  obtain rfl := Store.eq_of_left hother hrun
  exact hturns

/-- Whatever an operation turns a database into is a sequence of changes away. -/
theorem Turns.changes {now : Int64} {operation : Operation} {after : Database}
    (hturns : operation.Turns now db after) : Changes db after := by
  cases hturns with
  | beside hquiet hsides => exact hsides.changes
  | saveSession session scope =>
    have hscope := (Database.ensureScope_changes db scope).changes
    exact hscope.tail (.writeSession _ session now (Database.ensureScope_owner db scope))
  | deleteSession id => exact .single (.removeSessions _)
  | deleteBranch id => exact .single (.removeBranches _)
  | deleteRepository id => exact .single (.removeRepositories _)
  | cleanupSessions maxAgeDays maxSessions =>
    exact (Database.expireSessions_changes db now maxAgeDays).trans
      (Database.trimSessions_changes _ maxSessions)

/-- On an intact database every operation, successful or not, amounts to a sequence of changes. -/
theorem run_changes (h : db.Intact) (path : Option String) (now : Int64) (operation : Operation) :
    ∃ after, (operation.run now ⟨path, some db⟩).2 = ⟨path, some after⟩ ∧ Changes db after := by
  obtain ⟨after, hrun, hturns⟩ := operation.run_turns h path now
  exact ⟨after, hrun, hturns.changes⟩

end Operation

end SessionArchive
