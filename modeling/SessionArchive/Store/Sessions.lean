import SessionArchive.Store.Identity
import SessionArchive.Time.Calendar

/-!
# Sessions in the tables

A save writes the session's row and all its messages anew, numbered from zero, under the branch of a
scope that is made if need be. A load gives back the session with its scope, or says which message
cannot be read. Listings are ordered by the time of the last save, latest first, and within one
second by the order of the saves; the retention pass keeps a front part of that order.
-/

set_option autoImplicit false

namespace SessionArchive.Store

/-! ## Saving -/

/-- Writes a session and its messages under a scope. -/
def Write.saveSession (session : Session) (scope : Scope) (now : Int64) : Write Unit := do
  let branchId ← resolveScope scope
  putSession branchId session now
  -- overwriting a row leaves its messages, which go before the new ones come
  let _ ← deleteMessages fun m => m.sessionId == session.id
  insertMessages session.id 0 session.messages

/-! ## Loading -/

/-- The columns of a stored message, once they have the right kinds. -/
structure MessageColumns where
  sequence : Int
  role : String
  content : String
  createdAt : Int64

/-- The columns of a stored message. -/
def MessageRow.columns (row : MessageRow) : Except Fault MessageColumns := do
  let sequence ← row.sequence.toInt 0 "sequence"
  let role ← row.role.toText 1 "role"
  let content ← row.content.toText 2 "content"
  let createdAt ← row.createdAt.toInt 3 "created_at"
  .ok ⟨sequence, role, content, Int64.ofInt createdAt⟩

/-- The message that columns mean, with the time of its column; or why they mean none. -/
def MessageColumns.message (columns : MessageColumns) : Except String Message :=
  match Message.decode columns.content with
  | .error fault => .error s!"invalid content: {fault.message columns.content.toList}"
  | .ok message =>
    match Role.ofName? columns.role with
    | none => .error s!"unknown role `{columns.role}`"
    | some role =>
      if role = message.role then .ok { message with createdAt := columns.createdAt }
      else .error
        s!"role column `{role.name}` disagrees with content role `{message.role.name}`"

/-- The messages that a list of columns means, up to the first that means none. -/
def decodeAll (sessionId : String) : List MessageColumns → Except Failure (List Message)
  | [] => .ok []
  | columns :: rest =>
    match columns.message with
    | .ok message => (decodeAll sessionId rest).map (message :: ·)
    | .error reason => .error (.corruptMessage sessionId columns.sequence reason)

namespace Database

/-- The rows of a session's messages in order of their places. -/
def orderedMessages (db : Database) (sessionId : String) : List MessageRow :=
  (db.messagesOf sessionId).mergeSort fun a b => !b.sequence.isBefore a.sequence

/-- The row of a session and its scope. -/
def findSession? (db : Database) (id : String) : Option (SessionRow × Scope) :=
  (db.sessions.rows.find? fun s => s.id == id).bind fun s =>
    (db.scopeOf? s.branchId).map fun scope => (s, scope)

/-- A session and its scope. -/
def loadSession (db : Database) (id : String) : Except Failure LoadedSession :=
  db.read "load_session" id fun db => do
    db.requireAll [.sessions, .branches, .repositories]
    match db.findSession? id with
    | none => .error (.sessionNotFound id)
    | some (row, scope) => do
      db.requireAll [.messages]
      let columns ← ((db.orderedMessages id).mapM MessageRow.columns).mapError Failure.database
      let messages ← decodeAll id columns
      .ok ⟨scope, ⟨row.id, row.createdAt, row.lastUpdated, row.firstPrompt, row.provider,
        row.model, row.workingDir, messages⟩⟩

/-! ## Listing -/

/-- Whether a session was saved no earlier than another. -/
def recencyLe (a b : SessionRow) : Bool :=
  b.lastUpdated.toInt < a.lastUpdated.toInt ||
    (a.lastUpdated == b.lastUpdated && b.saveSeq ≤ a.saveSeq)

/-- The sessions, the one saved last first. -/
def byRecency (rows : List SessionRow) : List SessionRow := rows.mergeSort recencyLe

/-- A session's row as a listing shows it, if its branch and repository are there. -/
def summary? (db : Database) (row : SessionRow) : Option SessionSummary :=
  (db.scopeOf? row.branchId).map fun scope =>
    ⟨row.id, scope, row.createdAt, row.lastUpdated, row.firstPrompt, row.provider, row.model,
     row.workingDir, (db.messagesOf row.id).length⟩

/-- The first elements of a list; a limit of zero means no limit. -/
def limited {α : Type} (limit : Nat) (xs : List α) : List α :=
  if limit = 0 then xs else xs.take limit

/-- All sessions as a listing shows them. -/
def summaries (db : Database) : List SessionSummary :=
  (byRecency db.sessions.rows).filterMap db.summary?

/-- The sessions of a scope as a listing shows them. -/
def summariesIn (db : Database) (scope : Scope) : List SessionSummary :=
  let rows := db.sessions.rows.filter fun row => db.scopeOf? row.branchId == some scope
  (byRecency rows).filterMap db.summary?

/-- The tables that a listing reads. -/
def summaryTables : List TableName := [.sessions, .branches, .repositories, .messages]

/-- The sessions of a scope, the one saved last first. -/
def listSessions (db : Database) (scope : Scope) (limit : Nat) :
    Except Failure (List SessionSummary) :=
  db.read "list_sessions" scope.display fun db => do
    db.requireAll summaryTables
    .ok (limited limit (db.summariesIn scope))

/-- The sessions of all scopes, the one saved last first. -/
def listAllSessions (db : Database) (limit : Nat) : Except Failure (List SessionSummary) :=
  db.read "list_all_sessions" "all scopes" fun db => do
    db.requireAll summaryTables
    .ok (limited limit db.summaries)

end Database

/-! ## Retention -/

/-- The time before which something is older than a number of days. -/
def ageCutoff (now : Int64) (days : Nat) : Int := now.toInt - days * Time.secondsPerDay

/-- What a retention pass removed: sessions that were too old, and sessions beyond the limit. -/
structure CleanupReport where
  expired : Nat
  overLimit : Nat
deriving Repr, DecidableEq

/-- The number of sessions that a retention pass removed. -/
def CleanupReport.total (report : CleanupReport) : Nat := report.expired + report.overLimit

/-- Removes the sessions that were not saved for a number of days. -/
def Write.expireSessions (now : Int64) (days : Nat) : Write Nat :=
  deleteSessions fun s => s.lastUpdated.toInt < ageCutoff now days

/-- Removes all sessions but the ones saved last. -/
def Write.trimSessions (keep : Nat) : Write Nat := do
  let kept := ((Database.byRecency (← get).sessions.rows).take keep).map SessionRow.id
  deleteSessions fun s => !kept.contains s.id

/-- Applies both limits, where a limit of zero is none. -/
def Write.cleanupSessions (now : Int64) (maxAgeDays maxSessions : Nat) : Write CleanupReport := do
  let expired ← if maxAgeDays = 0 then pure 0 else expireSessions now maxAgeDays
  let overLimit ← if maxSessions = 0 then pure 0 else trimSessions maxSessions
  pure ⟨expired, overLimit⟩

end SessionArchive.Store
