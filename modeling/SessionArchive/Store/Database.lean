import SessionArchive.History
import SessionArchive.Session
import SessionArchive.Store.Cell

/-!
# The tables

A `Database` is what is stored: repositories, their branches, the sessions and the two streams of
history of each branch, and the messages of each session. Each table counts the ids that it has
handed out, so that none is used twice. Removing a row removes everything that belongs to it:
`removeSessions`, `removeBranches` and `removeRepositories` are the three cascades.
-/

set_option autoImplicit false

namespace SessionArchive.Store

/-! ## Rows -/

/-- A stored session, without its messages. `saveSeq` orders the saves. -/
structure SessionRow where
  id : String
  branchId : RowId
  createdAt : Int64
  lastUpdated : Int64
  firstPrompt : String
  provider : String
  model : String
  workingDir : String
  saveSeq : Int
deriving Repr, DecidableEq

/-- A stored message: its session, its place there, and its content as JSON text with the role and
the time beside it. -/
structure MessageRow where
  id : RowId
  sessionId : String
  sequence : Cell
  role : Cell
  content : Cell
  createdAt : Cell
deriving Repr, DecidableEq

/-- A version of the layout of the tables, and when it was applied. -/
structure VersionRow where
  version : Nat
  appliedAt : Int64
deriving Repr, DecidableEq

/-- The rows of a table, and the greatest id that was handed out for it. -/
structure Table (α : Type) where
  rows : List α
  lastId : RowId
deriving Repr

/-- A table without rows. -/
def Table.empty {α : Type} : Table α := ⟨[], 0⟩

/-- The table with other rows. -/
def Table.withRows {α : Type} (table : Table α) (rows : List α) : Table α := { table with rows }

/-! ## Names of tables -/

/-- The tables. -/
inductive TableName where
  | schemaVersion
  | repositories
  | branches
  | sessions
  | messages
  | history (kind : HistoryKind)
deriving Repr, DecidableEq

namespace TableName

/-- The name of a table. -/
def name : TableName → String
  | .schemaVersion => "schema_version"
  | .repositories => "repositories"
  | .branches => "branches"
  | .sessions => "sessions"
  | .messages => "messages"
  | .history kind => kind.table

/-- The tables that are counted, in the order of the report. -/
def counted : List TableName :=
  [.repositories, .branches, .sessions, .messages, .history .prompt, .history .command]

/-- All tables. -/
def all : List TableName := .schemaVersion :: counted

/-- The table with a name. -/
def ofName? (name : String) : Option TableName := all.find? fun t => t.name == name

/-- The table that the rows of a table belong to. -/
def parent? : TableName → Option TableName
  | .schemaVersion => none
  | .repositories => none
  | .branches => some .repositories
  | .sessions => some .branches
  | .messages => some .sessions
  | .history _ => some .branches

end TableName

/-- What may be rejected. -/
inductive Event where
  | insert
  | delete
deriving Repr, DecidableEq

/-- A standing rejection of an event on the rows of a table; for messages, perhaps only of those at
one place in their session. -/
structure Rejection where
  event : Event
  table : TableName
  sequence : Option Int
deriving Repr, DecidableEq

/-! ## The database -/

/-- Everything that is stored. `missing` lists the tables that are gone. -/
structure Database where
  versions : List VersionRow
  repositories : Table Repository
  branches : Table Branch
  sessions : Table SessionRow
  messages : Table MessageRow
  prompts : Table HistoryEntry
  commands : Table HistoryEntry
  missing : List TableName
  rejections : List Rejection
deriving Repr

namespace Database

/-- The version of the layout. -/
def currentVersion : Nat := 1

/-- A new database. -/
def new (now : Int64) : Database :=
  ⟨[⟨currentVersion, now⟩], .empty, .empty, .empty, .empty, .empty, .empty, [], []⟩

/-- The entries of a stream. -/
def history (db : Database) : HistoryKind → Table HistoryEntry
  | .prompt => db.prompts
  | .command => db.commands

/-- The database with other entries in a stream. -/
def setHistory (db : Database) (kind : HistoryKind) (table : Table HistoryEntry) : Database :=
  match kind with
  | .prompt => { db with prompts := table }
  | .command => { db with commands := table }

/-- What is done when a database is opened: tables that are gone are made again, and the version is
stamped where no row has it. -/
def applySchema (db : Database) (now : Int64) : Database :=
  { db with
    missing := []
    versions :=
      if db.versions.any (·.version == currentVersion) then db.versions
      else db.versions ++ [⟨currentVersion, now⟩] }

/-! ## Looking up -/

/-- The repository with a key. -/
def findRepository? (db : Database) (host org project : String) : Option Repository :=
  db.repositories.rows.find? fun r => r.host == host && r.org == org && r.project == project

/-- The branch with a key. -/
def findBranch? (db : Database) (repositoryId : RowId) (name : String) : Option Branch :=
  db.branches.rows.find? fun b => b.repositoryId == repositoryId && b.name == name

/-- The scope of a branch that belongs to a repository. -/
def scopeOf? (db : Database) (branchId : RowId) : Option Scope :=
  (db.branches.rows.find? fun b => b.id == branchId).bind fun b =>
    (db.repositories.rows.find? fun r => r.id == b.repositoryId).map fun r =>
      ⟨r.host, r.org, r.project, b.name⟩

/-- The messages of a session. -/
def messagesOf (db : Database) (sessionId : String) : List MessageRow :=
  db.messages.rows.filter fun m => m.sessionId == sessionId

/-! ## Removing with all that belongs to it -/

/-- Removes sessions and their messages. -/
def removeSessions (db : Database) (p : SessionRow → Bool) : Database :=
  let removed := (db.sessions.rows.filter p).map SessionRow.id
  { db with
    sessions := db.sessions.withRows (db.sessions.rows.filter (!p ·))
    messages := db.messages.withRows
      (db.messages.rows.filter fun m => !removed.contains m.sessionId) }

/-- Removes branches with their sessions and their history. -/
def removeBranches (db : Database) (p : Branch → Bool) : Database :=
  let removed := (db.branches.rows.filter p).map Branch.id
  let owned := fun entry : HistoryEntry => removed.contains entry.branchId
  -- the sessions take their messages along
  { db.removeSessions fun s => removed.contains s.branchId with
    branches := db.branches.withRows (db.branches.rows.filter (!p ·))
    prompts := db.prompts.withRows (db.prompts.rows.filter (!owned ·))
    commands := db.commands.withRows (db.commands.rows.filter (!owned ·)) }

/-- Removes repositories with their branches. -/
def removeRepositories (db : Database) (p : Repository → Bool) : Database :=
  let removed := (db.repositories.rows.filter p).map Repository.id
  { db.removeBranches fun b => removed.contains b.repositoryId with
    repositories := db.repositories.withRows (db.repositories.rows.filter (!p ·)) }

/-- Removes messages. -/
def removeMessages (db : Database) (p : MessageRow → Bool) : Database :=
  { db with messages := db.messages.withRows (db.messages.rows.filter (!p ·)) }

/-- Removes entries of a stream. -/
def removeHistory (db : Database) (kind : HistoryKind) (p : HistoryEntry → Bool) : Database :=
  db.setHistory kind ((db.history kind).withRows ((db.history kind).rows.filter (!p ·)))

end Database

end SessionArchive.Store
