import SessionArchive.Store.Database
import SessionArchive.Failure

/-!
# Changes from outside

What another program with access to the tables may do to them: set columns to values of any kind,
remove tables, and reject events on rows.
-/

set_option autoImplicit false

namespace SessionArchive.Store

/-- The columns of a message that may be set. -/
inductive MessageColumn where
  | sequence
  | role
  | content
  | createdAt
deriving Repr, DecidableEq

namespace MessageColumn

/-- The columns by name. -/
def names : List (String × MessageColumn) :=
  [("sequence", .sequence), ("role", .role), ("content", .content), ("created_at", .createdAt)]

/-- The affinity of a column. -/
def affinity : MessageColumn → Cell.Affinity
  | .sequence => .integer
  | .role => .text
  | .content => .text
  | .createdAt => .integer

/-- Sets a column of a row. -/
def set (column : MessageColumn) (value : Cell) (row : MessageRow) : MessageRow :=
  let value := value.store column.affinity
  match column with
  | .sequence => { row with sequence := value }
  | .role => { row with role := value }
  | .content => { row with content := value }
  | .createdAt => { row with createdAt := value }

end MessageColumn

namespace Database

/-- Changes the rows for which `p` holds, and counts them. -/
def changeRows {α : Type} (p : α → Bool) (change : α → α) (rows : List α) : List α × Nat :=
  (rows.map fun row => if p row then change row else row, (rows.filter p).length)

/-- Sets the time of the last save of a session. -/
def setLastUpdated (db : Database) (id : String) (time : Int64) : Database × Nat :=
  let (rows, count) := changeRows (fun s : SessionRow => s.id == id)
    (fun s => { s with lastUpdated := time }) db.sessions.rows
  ({ db with sessions := db.sessions.withRows rows }, count)

/-- Sets a column of the messages at a place in a session. -/
def setMessage (db : Database) (sessionId : String) (sequence : Int) (column : MessageColumn)
    (value : Cell) : Database × Nat :=
  let (rows, count) := changeRows
    (fun m : MessageRow => m.sessionId == sessionId && m.sequence == .integer sequence)
    (column.set value) db.messages.rows
  ({ db with messages := db.messages.withRows rows }, count)

/-- Sets the time of an entry of a stream. -/
def setHistoryTime (db : Database) (kind : HistoryKind) (id : RowId) (time : Int64) :
    Database × Nat :=
  let (rows, count) := changeRows (fun entry : HistoryEntry => entry.id == id)
    (fun entry => { entry with timestamp := time }) (db.history kind).rows
  (db.setHistory kind ((db.history kind).withRows rows), count)

/-- Removes a table. Its rows are deleted first, and with them what belongs to them; the standing
rejections on it go too. -/
def dropTable (db : Database) (table : TableName) : Database :=
  -- a table that is made again hands out its ids from the beginning
  let emptied := match table with
    | .schemaVersion => { db with versions := [] }
    | .repositories => { db.removeRepositories fun _ => true with repositories := .empty }
    | .branches => { db.removeBranches fun _ => true with branches := .empty }
    | .sessions => { db.removeSessions fun _ => true with sessions := .empty }
    | .messages => { db with messages := .empty }
    | .history kind => db.setHistory kind .empty
  { emptied with
    missing := if db.missing.contains table then db.missing else db.missing ++ [table]
    rejections := db.rejections.filter fun r => r.table != table }

/-- Rejects an event on the rows of a table from now on. -/
def reject (db : Database) (rejection : Rejection) : Database :=
  { db with
    rejections := rejection :: db.rejections.filter fun r =>
      !(r.event == rejection.event && r.table == rejection.table) }

/-- Ends the rejection of an event on the rows of a table. -/
def unreject (db : Database) (event : Event) (table : TableName) : Database :=
  { db with
    rejections := db.rejections.filter fun r => !(r.event == event && r.table == table) }

end Database

end SessionArchive.Store
