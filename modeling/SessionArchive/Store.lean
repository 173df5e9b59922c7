import SessionArchive.Store.History
import SessionArchive.Store.Report
import SessionArchive.Store.Search

/-!
# The store

A `Store` is a handle on a database, open or closed. Every operation on a closed one fails with
`Failure.storeClosed`. Operations that write are run as a whole: when one fails, the database stays
as it was. Those that look something up to delete it report afterwards that it was not there.
-/

set_option autoImplicit false

namespace SessionArchive

open Store (Database Write StoreStats CleanupReport SearchHit)

/-- A handle on a database; `path` is the file that holds it, `database` is gone once the handle is
closed. -/
structure Store where
  path : Option String
  database : Option Database

namespace Store

/-- An open store of its own, held by no file. -/
def inMemory (now : Int64) : Store := ⟨none, some (Database.new now)⟩

/-- Whether a handle is closed. -/
def isClosed (store : Store) : Bool := store.database.isNone

/-- The handle, closed. -/
def close (store : Store) : Store := { store with database := none }

/-! ## Running operations -/

/-- Runs a sequence of statements as a whole. -/
def mutate {α : Type} (store : Store) (operation : String) (write : Write α) :
    Except Failure α × Store :=
  match store.database with
  | none => (.error .storeClosed, store)
  | some db =>
    -- a sequence that fails leaves `after` as the database that it began with
    let (result, after) := db.mutate operation write
    (result, { store with database := some after })

/-- Runs a query. -/
def query {α : Type} (store : Store) (run : Database → Except Failure α) : Except Failure α :=
  match store.database with
  | none => .error .storeClosed
  | some db => run db

/-- Runs a sequence of statements that counts what it deletes, and fails where that is nothing. -/
def deleteOr (store : Store) (operation : String) (write : Write Nat) (absent : Failure) :
    Except Failure Unit × Store :=
  match store.mutate operation write with
  | (.ok 0, after) => (.error absent, after)
  | (.ok (_ + 1), after) => (.ok (), after)
  | (.error failure, after) => (.error failure, after)

/-! ## The store itself -/

/-- Reclaims space. The statement that does so, `VACUUM`, is taken to keep every row, the order of
the rows and the counters of the ids, so that the tables stay as they were. -/
def compact (store : Store) : Except Failure Unit := store.query fun _ => .ok ()

/-- The number of rows of each table. -/
def stats (store : Store) : Except Failure StoreStats := store.query Database.stats

/-- The version of the layout of the tables. -/
def schemaVersion (store : Store) : Except Failure (Option Nat) :=
  store.query Database.schemaVersion

/-! ## Identity -/

/-- The id of a repository, which is inserted if it is not there. -/
def resolveRepository (store : Store) (host org project : String) :
    Except Failure RowId × Store :=
  store.mutate "resolve_repository" (Write.resolveRepository host org project)

/-- The id of a branch, which is inserted if it is not there. -/
def resolveBranch (store : Store) (repositoryId : RowId) (name : String) :
    Except Failure RowId × Store :=
  store.mutate "resolve_branch" (Write.resolveBranch repositoryId name)

/-- The id of the branch of a scope. -/
def resolveScope (store : Store) (scope : Scope) : Except Failure RowId × Store :=
  store.mutate "resolve_scope" (Write.resolveScope scope)

/-- The repository with a key, if it is there. -/
def getRepository (store : Store) (host org project : String) :
    Except Failure (Option Repository) :=
  store.query fun db => db.getRepository host org project

/-- The branch with a key, if it is there. -/
def getBranch (store : Store) (repositoryId : RowId) (name : String) :
    Except Failure (Option Branch) :=
  store.query fun db => db.getBranch repositoryId name

/-- The branch of a scope, if it is there. -/
def findScope (store : Store) (scope : Scope) : Except Failure (Option Branch) :=
  store.query fun db => db.findScope scope

/-- All repositories in order. -/
def listRepositories (store : Store) : Except Failure (List Repository) :=
  store.query Database.listRepositories

/-- The branches of a repository in order. -/
def listBranches (store : Store) (repositoryId : RowId) : Except Failure (List Branch) :=
  store.query fun db => db.listBranches repositoryId

/-- Deletes a repository and all that belongs to it. -/
def deleteRepository (store : Store) (id : RowId) : Except Failure Unit × Store :=
  store.deleteOr "delete_repository" (Write.deleteRepositories fun r => r.id == id)
    (.repositoryNotFound (toString id))

/-- Deletes a branch and all that belongs to it. -/
def deleteBranch (store : Store) (id : RowId) : Except Failure Unit × Store :=
  store.deleteOr "delete_branch" (Write.deleteBranches fun b => b.id == id)
    (.branchNotFound (toString id))

/-! ## Sessions -/

/-- Saves the session of a caller under a scope. The caller is left with the session that has the
time of the save, or with its own where the save fails. -/
def saveInPlace (store : Store) (session : Session) (scope : Scope) (now : Int64) :
    Except Failure Unit × Session × Store :=
  match store.mutate "save_session" (Write.saveSession session scope now) with
  | (.ok (), after) => (.ok (), { session with lastUpdated := now }, after)
  | (.error failure, after) => (.error failure, session, after)

/-- Saves a session under a scope; the answer is the session with the time of the save. -/
def saveSession (store : Store) (session : Session) (scope : Scope) (now : Int64) :
    Except Failure Session × Store :=
  let (result, saved, after) := store.saveInPlace session scope now
  (result.map fun _ => saved, after)

/-- A session with its scope. -/
def loadSession (store : Store) (id : String) : Except Failure LoadedSession :=
  store.query fun db => db.loadSession id

/-- The sessions of a scope, the one saved last first. -/
def listSessions (store : Store) (scope : Scope) (limit : Nat) :
    Except Failure (List SessionSummary) :=
  store.query fun db => db.listSessions scope limit

/-- The sessions of all scopes, the one saved last first. -/
def listAllSessions (store : Store) (limit : Nat) : Except Failure (List SessionSummary) :=
  store.query fun db => db.listAllSessions limit

/-- Deletes a session and its messages. -/
def deleteSession (store : Store) (id : String) : Except Failure Unit × Store :=
  store.deleteOr "delete_session" (Write.deleteSessions fun s => s.id == id) (.sessionNotFound id)

/-- Removes the sessions beyond two limits, each of which is none when zero. -/
def cleanupSessions (store : Store) (maxAgeDays maxSessions : Nat) (now : Int64) :
    Except Failure CleanupReport × Store :=
  if maxAgeDays = 0 ∧ maxSessions = 0 then (.ok ⟨0, 0⟩, store)
  else store.mutate "cleanup_old_sessions" (Write.cleanupSessions now maxAgeDays maxSessions)

/-! ## Search -/

/-- The messages that a pattern matches by an engine, the latest first, and the number that were
looked at. The pattern is compiled before the tables are looked at. -/
def searchScannedBy (engine : Engine) (store : Store) (pattern : String) (limit : Nat) :
    Except Failure (List SearchHit × Nat) :=
  match engine pattern with
  | .error fault => .error (.invalidPattern pattern fault)
  | .ok find => store.query fun db => db.searchMessages pattern find limit

/-- The messages that a pattern matches, and the number that were looked at. -/
def searchScanned : Store → String → Nat → Except Failure (List SearchHit × Nat) :=
  searchScannedBy patternEngine

/-- The messages that a pattern matches by an engine, the latest first. -/
def searchMessagesBy (engine : Engine) (store : Store) (pattern : String) (limit : Nat) :
    Except Failure (List SearchHit) :=
  (store.searchScannedBy engine pattern limit).map Prod.fst

/-- The messages that a pattern matches, the latest first. -/
def searchMessages : Store → String → Nat → Except Failure (List SearchHit) :=
  searchMessagesBy patternEngine

/-! ## History -/

/-- Adds a text at the end of a stream and drops all but the latest entries; a limit of zero is
none. The answer is the number of entries that were dropped. -/
def appendTrimming (store : Store) (kind : HistoryKind) (scope : Scope) (text : String)
    (maxEntries : Nat) (now : Int64) : Except Failure Nat × Store :=
  store.mutate s!"append_{kind.name}" (Write.appendHistory kind scope text maxEntries now)

/-- Adds a text at the end of a stream and drops all but the latest entries. -/
def appendHistory (store : Store) (kind : HistoryKind) (scope : Scope) (text : String)
    (maxEntries : Nat) (now : Int64) : Except Failure Unit × Store :=
  let (result, after) := store.appendTrimming kind scope text maxEntries now
  (result.map fun _ => (), after)

/-- The latest entries of a stream in order. -/
def loadHistory (store : Store) (kind : HistoryKind) (scope : Scope) (limit : Nat) :
    Except Failure (List HistoryEntry) :=
  store.query fun db => db.loadHistory kind scope limit

/-- Removes all entries of a stream; the answer is their number. -/
def clearHistory (store : Store) (kind : HistoryKind) (scope : Scope) :
    Except Failure Nat × Store :=
  match store.findScope scope with
  | .error failure => (.error failure, store)
  | .ok none => (.ok 0, store)
  -- only the entries of a branch that is there are removed
  | .ok (some branch) =>
    store.mutate s!"clear_{kind.name}_history" (Write.clearHistory kind branch.id)

/-- Removes the entries of both streams that are older than a number of days; zero is no limit. -/
def cleanupHistory (store : Store) (maxAgeDays : Nat) (now : Int64) : Except Failure Nat × Store :=
  if maxAgeDays = 0 then (.ok 0, store)
  else store.mutate "cleanup_old_history" (Write.expireHistory now maxAgeDays)

end Store

end SessionArchive
