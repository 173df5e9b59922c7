import SessionArchive.Failure
import SessionArchive.Store.Database

/-!
# Writing

A `Write` is a sequence of statements on a database that may stop with a failure halfway.
`Database.mutate` runs one as a whole: if it fails, the database is as it was before, row by row and
counter by counter. The statements check what the tables demand: that the table and the one its rows
belong to are there, that no standing rejection covers the event, that keys are unique and that
owners exist.
-/

set_option autoImplicit false

namespace SessionArchive.Store

/-- A sequence of statements on a database. -/
abbrev Write (α : Type) := EStateM Failure Database α

/-- Runs a sequence of statements as a whole. -/
def Database.mutate {α : Type} (db : Database) (operation : String) (write : Write α) :
    Except Failure α × Database :=
  match write db with
  | .ok value after => (.ok value, after)
  | .error failure _ => (.error (failure.rolledBack operation), db)

namespace Write

/-- Stops with a fault of the tables. -/
def fail {α : Type} (fault : Fault) : Write α := throw (.database fault)

/-- Stops where a table is missing. -/
def require (table : TableName) : Write Unit := do
  if (← get).missing.contains table then fail (.noTable table.name)

/-- Stops where the table that the rows of a table belong to is missing. -/
def requireParent (table : TableName) : Write Unit := do
  match table.parent? with
  | none => pure ()
  | some parent =>
    if (← get).missing.contains parent then fail (.noTable s!"main.{parent.name}")

/-- Stops where rows of a table cannot be inserted or deleted. -/
def requireRows (table : TableName) : Write Unit := do
  require table
  requireParent table

/-- Stops where a standing rejection covers an event on a row of a table. -/
def refuseRejected (event : Event) (table : TableName) (sequence : Option Cell) : Write Unit := do
  -- a rejection without a place covers every row of its table
  let covers := fun r : Rejection => r.event == event && r.table == table &&
    match r.sequence with
    | none => true
    | some n => sequence == some (.integer n)
  if (← get).rejections.any covers then fail .rejected

/-! ## Deleting -/

/-- Whether a standing rejection covers the deletion of a row that is in one database and not in
another. -/
def rejectsDeletion (before after : Database) : Bool :=
  before.rejections.any fun r => r.event == .delete &&
    match r.table with
    | .schemaVersion => false
    | .repositories => before.repositories.rows.any fun x => !after.repositories.rows.contains x
    | .branches => before.branches.rows.any fun x => !after.branches.rows.contains x
    | .sessions => before.sessions.rows.any fun x => !after.sessions.rows.contains x
    | .messages => before.messages.rows.any fun x => !after.messages.rows.contains x &&
        (match r.sequence with
        | none => true
        | some n => x.sequence == .integer n)
    | .history kind =>
      (before.history kind).rows.any fun x => !(after.history kind).rows.contains x

/-- Deletes rows of a table and what belongs to them; `count` counts the rows of the table. The
number of rows that went is the answer. -/
def delete (table : TableName) (count : Database → Nat) (change : Database → Database) :
    Write Nat := do
  requireRows table
  let before ← get
  let after := change before
  -- the rows that the cascade takes along count as well
  if !before.rejections.isEmpty && rejectsDeletion before after then fail .rejected
  set after
  pure (count before - count after)

/-- Deletes repositories. -/
def deleteRepositories (p : Repository → Bool) : Write Nat :=
  delete .repositories (·.repositories.rows.length) (·.removeRepositories p)

/-- Deletes branches. -/
def deleteBranches (p : Branch → Bool) : Write Nat :=
  delete .branches (·.branches.rows.length) (·.removeBranches p)

/-- Deletes sessions. -/
def deleteSessions (p : SessionRow → Bool) : Write Nat :=
  delete .sessions (·.sessions.rows.length) (·.removeSessions p)

/-- Deletes messages. -/
def deleteMessages (p : MessageRow → Bool) : Write Nat :=
  delete .messages (·.messages.rows.length) (·.removeMessages p)

/-- Deletes entries of a stream. -/
def deleteHistory (kind : HistoryKind) (p : HistoryEntry → Bool) : Write Nat :=
  delete (.history kind) (fun db => (db.history kind).rows.length) (·.removeHistory kind p)

/-! ## Inserting -/

/-- Inserts a repository under the next id. -/
def insertRepository (host : Option String) (org project : String) : Write RowId := do
  requireRows .repositories
  refuseRejected .insert .repositories none
  match host with
  | none => fail (.notNull "repositories.host")
  | some host =>
    let db ← get
    if (db.findRepository? host org project).isSome then
      fail (.notUnique ["repositories.host", "repositories.org", "repositories.project"])
    let id := db.repositories.lastId + 1
    set ({ db with
      repositories := ⟨db.repositories.rows ++ [⟨id, host, org, project⟩], id⟩ } : Database)
    pure id

/-- Inserts a branch of a repository under the next id. -/
def insertBranch (repositoryId : RowId) (name : String) : Write RowId := do
  requireRows .branches
  refuseRejected .insert .branches none
  let db ← get
  if db.repositories.rows.any (·.id == repositoryId) then
    let id := db.branches.lastId + 1
    set ({ db with
      branches := ⟨db.branches.rows ++ [⟨id, repositoryId, name⟩], id⟩ } : Database)
    pure id
  else fail .foreignKey

/-- The number of the next save: one more than the greatest one. -/
def nextSaveSeq (rows : List SessionRow) : Int :=
  (rows.map SessionRow.saveSeq).foldl max 0 + 1

/-- Inserts a session, or overwrites the one with its id. -/
def putSession (branchId : RowId) (session : Session) (now : Int64) : Write Unit := do
  requireRows .sessions
  refuseRejected .insert .sessions none
  let db ← get
  -- the row that is overwritten still counts for the number of the save
  let row : SessionRow :=
    ⟨session.id, branchId, session.createdAt, now, session.firstPrompt, session.provider,
     session.model, session.workingDir, nextSaveSeq db.sessions.rows⟩
  set ({ db with
    sessions := db.sessions.withRows
      ((db.sessions.rows.filter fun s => s.id != session.id) ++ [row]) } : Database)

/-- Inserts a message of a session at a place under the next id. -/
def insertMessage (sessionId : String) (sequence : Nat) (message : Message) : Write Unit := do
  requireRows .messages
  refuseRejected .insert .messages (some (.integer sequence))
  let db ← get
  let id := db.messages.lastId + 1
  let row : MessageRow :=
    ⟨id, sessionId, .integer sequence, .text message.role.name, .text message.encode,
     .integer message.createdAt.toInt⟩
  set ({ db with messages := ⟨db.messages.rows ++ [row], id⟩ } : Database)

/-- Inserts the messages of a session from a place on. -/
def insertMessages (sessionId : String) : Nat → List Message → Write Unit
  | _, [] => requireRows .messages
  | sequence, message :: rest => do
    insertMessage sessionId sequence message
    insertMessages sessionId (sequence + 1) rest

/-- Inserts an entry into a stream under the next id. -/
def insertHistory (kind : HistoryKind) (branchId : RowId) (text : String) (now : Int64) :
    Write Unit := do
  requireRows (.history kind)
  refuseRejected .insert (.history kind) none
  let db ← get
  let table := db.history kind
  let id := table.lastId + 1
  set (db.setHistory kind ⟨table.rows ++ [⟨id, branchId, text, now⟩], id⟩)

end Write

end SessionArchive.Store
