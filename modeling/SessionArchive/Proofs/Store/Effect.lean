import SessionArchive.Store

/-!
# What statements do

On an `Intact` database, one whose tables are all there and where no event is rejected, a statement
fails only by what its arguments say. This module names what statements then leave behind, as pure
functions such as `ensureScope`, `writeSession` and `appendHistory`, and has for each sequence of
statements the equation that says so.
-/

set_option autoImplicit false

namespace SessionArchive.Store

/-! ## Sequences of statements -/

namespace Write

variable {α β : Type} {db after : Database}

theorem bind_of_ok {write : Write α} {next : α → Write β} {value : α}
    (h : write db = .ok value after) : (write >>= next) db = next value after := by
  show EStateM.bind write next db = _
  simp only [EStateM.bind]
  rw [h]

theorem get_bind (next : Database → Write β) : ((get : Write Database) >>= next) db = next db db :=
  rfl

end Write

/-! ## Removals of nothing -/

/-- Where no row was removed, no row had to go. -/
theorem forall_of_count_eq_zero {α : Type} {p : α → Bool} {l : List α}
    (h : l.length - (l.filter (!p ·)).length = 0) : ∀ a ∈ l, p a = false := by
  have hle := List.length_filter_le (fun a => !p a) l
  have heq : (l.filter (!p ·)).length = l.length := by omega
  intro a ha
  simpa using List.filter_eq_self.mp (List.filter_sublist.eq_of_length heq) a ha

section Nothing

variable {α : Type} {p : α → Bool} {l : List α}

theorem filter_not_of_none (h : ∀ a ∈ l, p a = false) : l.filter (!p ·) = l := by
  apply List.filter_eq_self.mpr
  intro a ha
  rw [h a ha]
  rfl

theorem filter_of_none (h : ∀ a ∈ l, p a = false) : l.filter p = [] := by
  apply List.filter_eq_nil_iff.mpr
  intro a ha
  rw [h a ha]
  exact Bool.false_ne_true

end Nothing

namespace Database

variable {db : Database}

theorem removeSessions_of_none {p : SessionRow → Bool} (h : ∀ s ∈ db.sessions.rows, p s = false) :
    db.removeSessions p = db := by
  have hmessages : db.messages.rows.filter (fun m => !([] : List String).contains m.sessionId) =
      db.messages.rows := filter_not_of_none fun _ _ => rfl
  simp only [removeSessions, filter_not_of_none h, filter_of_none h, List.map_nil, hmessages,
    Table.withRows]

theorem removeBranches_of_none {p : Branch → Bool} (h : ∀ b ∈ db.branches.rows, p b = false) :
    db.removeBranches p = db := by
  have hsessions : db.removeSessions (fun s => ([] : List RowId).contains s.branchId) = db :=
    removeSessions_of_none fun _ _ => rfl
  have hentries : ∀ entries : List HistoryEntry,
      entries.filter (fun entry => !([] : List RowId).contains entry.branchId) = entries :=
    fun _ => filter_not_of_none fun _ _ => rfl
  simp only [removeBranches, filter_not_of_none h, filter_of_none h, List.map_nil, hsessions,
    hentries, Table.withRows]

theorem removeHistory_of_none {kind : HistoryKind} {p : HistoryEntry → Bool}
    (h : ∀ entry ∈ (db.history kind).rows, p entry = false) : db.removeHistory kind p = db := by
  rw [removeHistory, filter_not_of_none h]
  cases kind with
  | prompt => rfl
  | command => rfl

theorem removeRepositories_of_none {p : Repository → Bool}
    (h : ∀ r ∈ db.repositories.rows, p r = false) : db.removeRepositories p = db := by
  have hbranches : db.removeBranches (fun b => ([] : List RowId).contains b.repositoryId) = db :=
    removeBranches_of_none fun _ _ => rfl
  simp only [removeRepositories, filter_not_of_none h, filter_of_none h, List.map_nil, hbranches,
    Table.withRows]

end Database

namespace Database

/-- All tables are there, and no event is rejected. -/
structure Intact (db : Database) : Prop where
  missing : db.missing = []
  rejections : db.rejections = []

/-! ## What is left behind -/

/-- With a repository under the next id. -/
def addRepository (db : Database) (host org project : String) : Database :=
  let id := db.repositories.lastId + 1
  { db with repositories := ⟨db.repositories.rows ++ [⟨id, host, org, project⟩], id⟩ }

/-- With a branch under the next id. -/
def addBranch (db : Database) (repositoryId : RowId) (name : String) : Database :=
  let id := db.branches.lastId + 1
  { db with branches := ⟨db.branches.rows ++ [⟨id, repositoryId, name⟩], id⟩ }

/-- The id of the repository with a key, and the database that has it. -/
def ensureRepository (db : Database) (host org project : String) : RowId × Database :=
  match db.findRepository? host org project with
  | some repository => (repository.id, db)
  | none => (db.repositories.lastId + 1, db.addRepository host org project)

/-- The id of the branch with a key, and the database that has it. -/
def ensureBranch (db : Database) (repositoryId : RowId) (name : String) : RowId × Database :=
  match db.findBranch? repositoryId name with
  | some branch => (branch.id, db)
  | none => (db.branches.lastId + 1, db.addBranch repositoryId name)

/-- The id of the branch of a scope, and the database that has it. -/
def ensureScope (db : Database) (scope : Scope) : RowId × Database :=
  let (repositoryId, db) := db.ensureRepository scope.host scope.org scope.project
  db.ensureBranch repositoryId scope.branch

end Database

/-- The row of a message. -/
def messageRow (id : RowId) (sessionId : String) (sequence : Nat) (message : Message) :
    MessageRow :=
  ⟨id, sessionId, .integer sequence, .text message.role.name, .text message.encode,
    .integer message.createdAt.toInt⟩

/-- The rows of messages, numbered from an id and a place on. -/
def messageRows (sessionId : String) : RowId → Nat → List Message → List MessageRow
  | _, _, [] => []
  | id, sequence, message :: rest =>
    messageRow id sessionId sequence message :: messageRows sessionId (id + 1) (sequence + 1) rest

/-- The row of a session. -/
def sessionRow (branchId : RowId) (session : Session) (now : Int64) (saveSeq : Int) : SessionRow :=
  ⟨session.id, branchId, session.createdAt, now, session.firstPrompt, session.provider,
    session.model, session.workingDir, saveSeq⟩

namespace Database

/-- With the row of a session, in the place of the one with its id. -/
def putSession (db : Database) (branchId : RowId) (session : Session) (now : Int64) : Database :=
  { db with
    sessions := db.sessions.withRows
      ((db.sessions.rows.filter fun s => s.id != session.id) ++
        [sessionRow branchId session now (Write.nextSaveSeq db.sessions.rows)]) }

/-- With messages of a session from a place on, under the next ids. -/
def addMessages (db : Database) (sessionId : String) (sequence : Nat) (messages : List Message) :
    Database :=
  { db with
    messages := ⟨db.messages.rows ++
      messageRows sessionId (db.messages.lastId + 1) sequence messages,
      db.messages.lastId + messages.length⟩ }

/-- With a session and its messages in the place of all that was stored under its id. -/
def writeSession (db : Database) (branchId : RowId) (session : Session) (now : Int64) :
    Database :=
  (((db.putSession branchId session now).removeMessages fun m =>
    m.sessionId == session.id).addMessages session.id 0 session.messages)

/-- With an entry at the end of a stream, under the next id. -/
def addEntry (db : Database) (kind : HistoryKind) (branchId : RowId) (text : String)
    (now : Int64) : Database :=
  let table := db.history kind
  let id := table.lastId + 1
  db.setHistory kind ⟨table.rows ++ [⟨id, branchId, text, now⟩], id⟩

/-- Without the sessions that were not saved for a number of days; zero is no limit. -/
def expireSessions (db : Database) (now : Int64) (days : Nat) : Database :=
  if days = 0 then db
  else db.removeSessions fun s => s.lastUpdated.toInt < ageCutoff now days

/-- Without the sessions beyond a number, the ones saved last counted first; zero is no limit. -/
def trimSessions (db : Database) (keep : Nat) : Database :=
  if keep = 0 then db
  else
    let kept := ((byRecency db.sessions.rows).take keep).map SessionRow.id
    db.removeSessions fun s => !kept.contains s.id

/-- Without the entries of a branch in a stream but the latest ones. -/
def trimHistory (db : Database) (kind : HistoryKind) (branchId : RowId) (keep : Nat) : Database :=
  let kept := ((latestFirst (db.historyOf kind branchId)).take keep).map HistoryEntry.id
  db.removeHistory kind fun entry => entry.branchId == branchId && !kept.contains entry.id

/-- Without the entries of both streams that are older than a number of days. -/
def expireHistory (db : Database) (now : Int64) (days : Nat) : Database :=
  let old := fun entry : HistoryEntry => decide (entry.timestamp.toInt < ageCutoff now days)
  (db.removeHistory .prompt old).removeHistory .command old

/-- With an entry at the end of the stream of a scope, of which only the latest entries stay; zero
is no limit. -/
def appendHistory (db : Database) (kind : HistoryKind) (scope : Scope) (text : String)
    (maxEntries : Nat) (now : Int64) : Database :=
  let (branchId, there) := db.ensureScope scope
  let added := there.addEntry kind branchId text now
  if maxEntries = 0 then added else added.trimHistory kind branchId maxEntries

end Database

/-! ## What statements leave behind -/

namespace Write

variable {db : Database}

theorem require_intact (h : db.Intact) (table : TableName) : require table db = .ok () db := by
  simp only [require, get_bind, h.missing]
  rfl

theorem requireRows_intact (h : db.Intact) (table : TableName) :
    requireRows table db = .ok () db := by
  -- a row is only put where the table of its owner is there too
  have hparent : requireParent table db = .ok () db := by
    simp only [requireParent]
    cases table.parent? with
    | none => rfl
    | some parent =>
      simp only [get_bind, h.missing]
      rfl
  simp only [requireRows]
  rw [bind_of_ok (require_intact h table), hparent]

theorem refuseRejected_intact (h : db.Intact) (event : Event) (table : TableName)
    (sequence : Option Cell) : refuseRejected event table sequence db = .ok () db := by
  simp only [refuseRejected, get_bind, h.rejections]
  rfl

theorem delete_intact (h : db.Intact) (table : TableName) (count : Database → Nat)
    (change : Database → Database) :
    delete table count change db = .ok (count db - count (change db)) (change db) := by
  simp only [delete]
  rw [bind_of_ok (requireRows_intact h table), get_bind]
  simp only [h.rejections]
  rfl

theorem deleteRepositories_intact (h : db.Intact) (p : Repository → Bool) :
    deleteRepositories p db =
      .ok (db.repositories.rows.length - (db.removeRepositories p).repositories.rows.length)
        (db.removeRepositories p) := delete_intact h _ _ _

theorem deleteBranches_intact (h : db.Intact) (p : Branch → Bool) :
    deleteBranches p db =
      .ok (db.branches.rows.length - (db.removeBranches p).branches.rows.length)
        (db.removeBranches p) := delete_intact h _ _ _

theorem deleteSessions_intact (h : db.Intact) (p : SessionRow → Bool) :
    deleteSessions p db =
      .ok (db.sessions.rows.length - (db.removeSessions p).sessions.rows.length)
        (db.removeSessions p) := delete_intact h _ _ _

theorem deleteHistory_intact (h : db.Intact) (kind : HistoryKind) (p : HistoryEntry → Bool) :
    deleteHistory kind p db =
      .ok ((db.history kind).rows.length - ((db.removeHistory kind p).history kind).rows.length)
        (db.removeHistory kind p) := delete_intact h _ _ _

/-- Where a statement fails, it has changed nothing. -/
theorem insertRepository_intact (h : db.Intact) (host : Option String) (org project : String) :
    insertRepository host org project db =
      match host with
      | none => .error (.database (.notNull "repositories.host")) db
      | some host =>
        if (db.findRepository? host org project).isSome then
          .error (.database (.notUnique
            ["repositories.host", "repositories.org", "repositories.project"])) db
        else .ok (db.repositories.lastId + 1) (db.addRepository host org project) := by
  simp only [insertRepository]
  rw [bind_of_ok (requireRows_intact h .repositories),
    bind_of_ok (refuseRejected_intact h .insert .repositories none)]
  cases host with
  | none => rfl
  | some host =>
    simp only [get_bind]
    split
    · rfl
    · rfl

theorem insertBranch_intact (h : db.Intact) (repositoryId : RowId) (name : String) :
    insertBranch repositoryId name db =
      if db.repositories.rows.any (·.id == repositoryId) then
        .ok (db.branches.lastId + 1) (db.addBranch repositoryId name)
      else .error (.database .foreignKey) db := by
  simp only [insertBranch]
  rw [bind_of_ok (requireRows_intact h .branches),
    bind_of_ok (refuseRejected_intact h .insert .branches none), get_bind]
  split
  · rfl
  · rfl

theorem resolveRepository_intact (h : db.Intact) (host org project : String) :
    resolveRepository host org project db =
      .ok (db.ensureRepository host org project).1 (db.ensureRepository host org project).2 := by
  simp only [resolveRepository, Database.ensureRepository]
  rw [bind_of_ok (require_intact h .repositories), get_bind]
  cases hfind : db.findRepository? host org project with
  | some repository => rfl
  | none =>
    -- nothing has the key, so that the insertion cannot fail
    show insertRepository (some host) org project db = _
    rw [insertRepository_intact h]
    simp [hfind]

/-- A branch is resolved if it is there, or if its repository is. -/
theorem resolveBranch_intact (h : db.Intact) (repositoryId : RowId) (name : String) :
    resolveBranch repositoryId name db =
      if (db.findBranch? repositoryId name).isSome
          ∨ db.repositories.rows.any (·.id == repositoryId) then
        .ok (db.ensureBranch repositoryId name).1 (db.ensureBranch repositoryId name).2
      else .error (.database .foreignKey) db := by
  simp only [resolveBranch, Database.ensureBranch]
  rw [bind_of_ok (require_intact h .branches), get_bind]
  cases hfind : db.findBranch? repositoryId name with
  | some branch => simp; rfl
  | none =>
    show insertBranch repositoryId name db = _
    rw [insertBranch_intact h]
    simp

end Write

namespace Database

variable {db : Database}

theorem addRepository_intact (h : db.Intact) (host org project : String) :
    (db.addRepository host org project).Intact := ⟨h.missing, h.rejections⟩

theorem ensureRepository_intact (h : db.Intact) (host org project : String) :
    (db.ensureRepository host org project).2.Intact := by
  simp only [ensureRepository]
  split
  · exact h
  · exact addRepository_intact h host org project

theorem ensureBranch_intact (h : db.Intact) (repositoryId : RowId) (name : String) :
    (db.ensureBranch repositoryId name).2.Intact := by
  simp only [ensureBranch]
  split
  · exact h
  · exact ⟨h.missing, h.rejections⟩

theorem ensureScope_intact (h : db.Intact) (scope : Scope) : (db.ensureScope scope).2.Intact :=
  ensureBranch_intact (ensureRepository_intact h _ _ _) _ _

/-- The repository that is made sure of is there. -/
theorem exists_ensureRepository (db : Database) (host org project : String) :
    ∃ r ∈ (db.ensureRepository host org project).2.repositories.rows,
      r = ⟨(db.ensureRepository host org project).1, host, org, project⟩ := by
  simp only [ensureRepository]
  cases hfind : db.findRepository? host org project with
  | some repository =>
    -- what is found under a key has that key
    refine ⟨repository, List.mem_of_find?_eq_some hfind, ?_⟩
    have hkey := List.find?_some hfind
    simp only [Bool.and_eq_true, beq_iff_eq] at hkey
    rcases hkey with ⟨⟨rfl, rfl⟩, rfl⟩
    rfl
  | none => exact ⟨_, List.mem_append_right _ (List.mem_singleton_self _), rfl⟩

/-- The branch that is made sure of is there. -/
theorem exists_ensureBranch (db : Database) (repositoryId : RowId) (name : String) :
    ∃ b ∈ (db.ensureBranch repositoryId name).2.branches.rows,
      b = ⟨(db.ensureBranch repositoryId name).1, repositoryId, name⟩ := by
  simp only [ensureBranch]
  cases hfind : db.findBranch? repositoryId name with
  | some branch =>
    refine ⟨branch, List.mem_of_find?_eq_some hfind, ?_⟩
    have hkey := List.find?_some hfind
    simp only [Bool.and_eq_true, beq_iff_eq] at hkey
    rcases hkey with ⟨rfl, rfl⟩
    rfl
  | none => exact ⟨_, List.mem_append_right _ (List.mem_singleton_self _), rfl⟩

theorem ensureBranch_repositories (db : Database) (repositoryId : RowId) (name : String) :
    (db.ensureBranch repositoryId name).2.repositories = db.repositories := by
  simp only [ensureBranch]
  split
  · rfl
  · rfl

end Database

namespace Write

variable {db : Database}

theorem resolveScope_intact (h : db.Intact) (scope : Scope) :
    resolveScope scope db = .ok (db.ensureScope scope).1 (db.ensureScope scope).2 := by
  simp only [resolveScope]
  rw [bind_of_ok (resolveRepository_intact h _ _ _),
    resolveBranch_intact (Database.ensureRepository_intact h _ _ _)]
  -- the branch has an owner, so that its insertion cannot fail
  obtain ⟨r, hr, heq⟩ := db.exists_ensureRepository scope.host scope.org scope.project
  rw [if_pos (.inr (List.any_eq_true.mpr ⟨r, hr, by rw [heq]; exact beq_self_eq_true _⟩))]
  rfl

theorem putSession_intact (h : db.Intact) (branchId : RowId) (session : Session) (now : Int64) :
    putSession branchId session now db = .ok () (db.putSession branchId session now) := by
  simp only [putSession]
  rw [bind_of_ok (requireRows_intact h .sessions),
    bind_of_ok (refuseRejected_intact h .insert .sessions none), get_bind]
  rfl

theorem insertMessage_intact (h : db.Intact) (sessionId : String) (sequence : Nat)
    (message : Message) :
    insertMessage sessionId sequence message db =
      .ok () (db.addMessages sessionId sequence [message]) := by
  simp only [insertMessage]
  rw [bind_of_ok (requireRows_intact h .messages),
    bind_of_ok (refuseRejected_intact h .insert .messages _), get_bind]
  rfl

end Write

namespace Database

variable {db : Database}

theorem addMessages_nil (db : Database) (sessionId : String) (sequence : Nat) :
    db.addMessages sessionId sequence [] = db := by
  simp [addMessages, messageRows]

theorem addMessages_cons (db : Database) (sessionId : String) (sequence : Nat)
    (message : Message) (rest : List Message) :
    db.addMessages sessionId sequence (message :: rest) =
      (db.addMessages sessionId sequence [message]).addMessages sessionId (sequence + 1) rest := by
  have hlast : db.messages.lastId + (rest.length + 1 : Nat) =
      db.messages.lastId + 1 + rest.length := by grind
  simp [addMessages, messageRows, ← hlast]

end Database

namespace Write

variable {db : Database}

theorem insertMessages_intact (h : db.Intact) (sessionId : String) (sequence : Nat)
    (messages : List Message) :
    insertMessages sessionId sequence messages db =
      .ok () (db.addMessages sessionId sequence messages) := by
  induction messages generalizing sequence db with
  | nil =>
    -- a session without messages still needs the table
    rw [Database.addMessages_nil]
    exact requireRows_intact h .messages
  | cons message rest ih =>
    have hafter : (db.addMessages sessionId sequence [message]).Intact :=
      ⟨h.missing, h.rejections⟩
    simp only [insertMessages]
    rw [bind_of_ok (insertMessage_intact h sessionId sequence message), ih hafter,
      ← Database.addMessages_cons]

/-- Saving makes sure of the branch and writes the session. -/
theorem saveSession_intact (h : db.Intact) (session : Session) (scope : Scope) (now : Int64) :
    saveSession session scope now db =
      .ok () ((db.ensureScope scope).2.writeSession (db.ensureScope scope).1 session now) := by
  have hscope := Database.ensureScope_intact h scope
  generalize hput : (db.ensureScope scope).2.putSession (db.ensureScope scope).1 session now = put
  have hintact : put.Intact := by
    rw [← hput]
    exact ⟨hscope.missing, hscope.rejections⟩
  have hdelete := delete_intact hintact .messages (·.messages.rows.length)
    (·.removeMessages fun m => m.sessionId == session.id)
  have hemptied : (put.removeMessages fun m => m.sessionId == session.id).Intact :=
    ⟨hintact.missing, hintact.rejections⟩
  have hinsert := insertMessages_intact hemptied session.id 0 session.messages
  -- the branch first, then the row, and the messages last
  simp only [saveSession]
  rw [bind_of_ok (resolveScope_intact h scope), bind_of_ok (putSession_intact hscope _ session now),
    hput]
  -- the count of the deleted messages is thrown away
  refine (bind_of_ok hdelete).trans (hinsert.trans ?_)
  rw [← hput]
  rfl

theorem insertHistory_intact (h : db.Intact) (kind : HistoryKind) (branchId : RowId)
    (text : String) (now : Int64) :
    insertHistory kind branchId text now db = .ok () (db.addEntry kind branchId text now) := by
  simp only [insertHistory]
  rw [bind_of_ok (requireRows_intact h (.history kind)),
    bind_of_ok (refuseRejected_intact h .insert (.history kind) none), get_bind]
  rfl

/-- The two passes, one after the other. -/
theorem cleanupSessions_eq (now : Int64) (maxAgeDays maxSessions : Nat) :
    cleanupSessions now maxAgeDays maxSessions =
      ((if maxAgeDays = 0 then pure 0 else expireSessions now maxAgeDays : Write Nat) >>=
        fun expired =>
          (if maxSessions = 0 then pure 0 else trimSessions maxSessions : Write Nat) >>=
            fun overLimit => pure ⟨expired, overLimit⟩) := by
  simp only [cleanupSessions]
  split
  · split
    · rfl
    · rfl
  · split
    · rfl
    · rfl

/-- A pass that a limit of zero switches off. -/
theorem limited_of_ok (limit : Nat) {pass : Write Nat} {after : Database}
    (hpass : pass db = .ok (db.sessions.rows.length - after.sessions.rows.length) after) :
    (if limit = 0 then pure 0 else pass : Write Nat) db =
      .ok (db.sessions.rows.length - (if limit = 0 then db else after).sessions.rows.length)
        (if limit = 0 then db else after) := by
  split
  · rw [Nat.sub_self]
    rfl
  · exact hpass

theorem cleanupSessions_intact (h : db.Intact) (now : Int64) (maxAgeDays maxSessions : Nat) :
    cleanupSessions now maxAgeDays maxSessions db =
      let expired := db.expireSessions now maxAgeDays
      let trimmed := expired.trimSessions maxSessions
      .ok ⟨db.sessions.rows.length - expired.sessions.rows.length,
        expired.sessions.rows.length - trimmed.sessions.rows.length⟩ trimmed := by
  have hexpired : (db.expireSessions now maxAgeDays).Intact := by
    simp only [Database.expireSessions]
    split
    · exact h
    · exact ⟨h.missing, h.rejections⟩
  have hage : (if maxAgeDays = 0 then pure 0 else expireSessions now maxAgeDays : Write Nat) db =
      .ok (db.sessions.rows.length - (db.expireSessions now maxAgeDays).sessions.rows.length)
        (db.expireSessions now maxAgeDays) :=
    limited_of_ok maxAgeDays (deleteSessions_intact h _)
  -- the second pass sees what the first one left
  generalize db.expireSessions now maxAgeDays = expired at hage hexpired ⊢
  have hcount : (if maxSessions = 0 then pure 0 else trimSessions maxSessions : Write Nat) expired =
      .ok (expired.sessions.rows.length - (expired.trimSessions maxSessions).sessions.rows.length)
        (expired.trimSessions maxSessions) :=
    limited_of_ok maxSessions (deleteSessions_intact hexpired _)
  rw [cleanupSessions_eq, bind_of_ok hage]
  exact bind_of_ok hcount

theorem trimHistory_intact (h : db.Intact) (kind : HistoryKind) (branchId : RowId) (keep : Nat) :
    trimHistory kind branchId keep db =
      .ok ((db.history kind).rows.length -
          ((db.trimHistory kind branchId keep).history kind).rows.length)
        (db.trimHistory kind branchId keep) :=
  delete_intact h (.history kind) _ _

theorem expireHistory_intact (h : db.Intact) (now : Int64) (days : Nat) :
    expireHistory now days db =
      .ok (db.prompts.rows.length - (db.expireHistory now days).prompts.rows.length +
          (db.commands.rows.length - (db.expireHistory now days).commands.rows.length))
        (db.expireHistory now days) := by
  let old := fun entry : HistoryEntry => decide (entry.timestamp.toInt < ageCutoff now days)
  have hafter : (db.removeHistory .prompt old).Intact := ⟨h.missing, h.rejections⟩
  have hprompts := deleteHistory_intact h .prompt old
  have hcommands := deleteHistory_intact hafter .command old
  exact (bind_of_ok hprompts).trans (bind_of_ok hcommands)

theorem addEntry_intact (h : db.Intact) (kind : HistoryKind) (branchId : RowId) (text : String)
    (now : Int64) : (db.addEntry kind branchId text now).Intact := by
  cases kind with
  | prompt => exact ⟨h.missing, h.rejections⟩
  | command => exact ⟨h.missing, h.rejections⟩

theorem appendHistory_intact (h : db.Intact) (kind : HistoryKind) (scope : Scope) (text : String)
    (maxEntries : Nat) (now : Int64) :
    ∃ count, appendHistory kind scope text maxEntries now db =
      .ok count (db.appendHistory kind scope text maxEntries now) := by
  have hscope := Database.ensureScope_intact h scope
  have hadded := addEntry_intact hscope kind (db.ensureScope scope).1 text now
  unfold appendHistory Database.appendHistory
  rw [bind_of_ok (resolveScope_intact h scope),
    bind_of_ok (insertHistory_intact hscope kind _ text now)]
  dsimp only
  split
  · exact ⟨0, rfl⟩
  · exact ⟨_, trimHistory_intact hadded kind _ maxEntries⟩

end Write

end SessionArchive.Store
