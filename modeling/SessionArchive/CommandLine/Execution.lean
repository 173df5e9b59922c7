import SessionArchive.CommandLine.Answer
import SessionArchive.CommandLine.Log
import SessionArchive.Settings

/-!
# Execution

What each command does to a store. An `Outcome` is the answer or the failure, the events on the way,
and the store afterwards.
-/

set_option autoImplicit false

namespace SessionArchive.CommandLine

open Store (Database Write)

/-- What the execution of a command leaves. -/
structure Outcome where
  result : Except Failure Answer
  events : List Event
  store : Store

/-- The events of a failure. -/
def failureEvents : Failure → List Event
  | .transaction operation source => [.rolledBack operation source]
  | _ => []

/-- The outcome of an operation. -/
def Outcome.of {α : Type} (result : Except Failure α) (store : Store) (answer : α → Answer)
    (events : α → List Event) : Outcome :=
  match result with
  | .ok value => ⟨.ok (answer value), events value, store⟩
  | .error failure => ⟨.error failure, failureEvents failure, store⟩

/-- What a command needs besides the store. -/
structure Context where
  settings : Settings
  scope : Scope
  now : Int64

namespace SessionCommand

/-- The events of a retention pass; one that removes nothing has none. -/
def cleanupEvents (days count : Nat) (report : Store.CleanupReport) : List Event :=
  if report.total = 0 then [] else [.removedSessions report.expired report.overLimit days count]

/-- Executes a command on sessions. -/
def execute (context : Context) (store : Store) : SessionCommand → Outcome
  | .list all limit =>
    let limit := limit.getD context.settings.sessions.listLimit.toNat
    if all then
      .of (store.listAllSessions limit) store (.sessions none) fun _ => []
    else
      .of (store.listSessions context.scope limit) store (.sessions (some context.scope))
        fun _ => []
  | .transcript id last =>
    .of (store.loadSession id) store
      (fun loaded => .transcript (match last with
        | some count => { loaded with session := loaded.session.keepLast count }
        | none => loaded))
      fun loaded => [.loadedSession id loaded.session.messages.length]
  | .delete id =>
    let (result, after) := store.deleteSession id
    .of result after (fun _ => .deletedSession id) fun _ => [.deletedSession id]
  | .search pattern limit =>
    .of (store.searchScanned pattern limit) store (fun found => .hits pattern found.1)
      fun (hits, scanned) => [.searched pattern scanned hits.length]
  | .cleanup maxAgeDays maxSessions =>
    let days := maxAgeDays.getD context.settings.sessions.effectiveMaxAgeDays
    let count := maxSessions.getD context.settings.sessions.effectiveMaxSessions
    let (result, after) := store.cleanupSessions days count context.now
    .of result after (fun report => .removedSessions report days count)
      (cleanupEvents days count)

end SessionCommand

namespace HistoryCommand

/-- The repositories and branches that a sequence of statements records, even where it fails
later. -/
def createdEvents {α : Type} (store : Store) (write : Write α) : List Event :=
  match store.database with
  | none => []
  | some before =>
    -- what was recorded is told although a failure undoes it
    let after := match write before with
      | .ok _ after => after
      | .error _ after => after
    ((after.repositories.rows.filter (!before.repositories.rows.contains ·)).map
        Event.createdRepository) ++
      (after.branches.rows.filter (!before.branches.rows.contains ·)).map Event.createdBranch

/-- Executes a command on history. -/
def execute (context : Context) (store : Store) : HistoryCommand → Outcome
  | .list kind limit =>
    .of (store.loadHistory kind context.scope limit) store (.history kind context.scope)
      fun _ => []
  | .add kind text =>
    let maxEntries := context.settings.history.effectiveMaxEntries
    let (result, after) :=
      store.appendTrimming kind context.scope text maxEntries context.now
    let outcome := Outcome.of result after (fun _ => .addedHistory kind context.scope text)
      fun trimmed => [.appendedHistory kind context.scope trimmed]
    let created := createdEvents store
      (Write.appendHistory kind context.scope text maxEntries context.now)
    { outcome with events := created ++ outcome.events }
  | .clear kind =>
    let known := match store.findScope context.scope with
      | .ok (some _) => true
      | _ => false
    let (result, after) := store.clearHistory kind context.scope
    .of result after (fun removed => .clearedHistory kind context.scope removed)
      fun removed => if known then [.clearedHistory kind context.scope removed] else []
  | .cleanup maxAgeDays =>
    let days := maxAgeDays.getD context.settings.history.effectiveMaxAgeDays
    let (result, after) := store.cleanupHistory days context.now
    .of result after (fun removed => .removedHistory removed days)
      fun removed => if removed = 0 then [] else [.removedHistory removed days]

end HistoryCommand

/-- Executes a command on repositories and branches. -/
def RepositoryCommand.execute (store : Store) : RepositoryCommand → Outcome
  | .list => .of store.listRepositories store .repositories fun _ => []
  | .branches id => .of (store.listBranches id) store (.branches id) fun _ => []
  | .delete id =>
    let (result, after) := store.deleteRepository id
    .of result after (fun _ => .deletedRepository id) fun _ => [.deletedRepository id]
  | .deleteBranch id =>
    let (result, after) := store.deleteBranch id
    .of result after (fun _ => .deletedBranch id) fun _ => [.deletedBranch id]

/-- Executes a command on the database as a whole. -/
def DatabaseCommand.execute (store : Store) : DatabaseCommand → Outcome
  | .stats => .of store.stats store (.stats store.path) fun _ => []
  | .compact => .of store.compact store (fun _ => .compacted) fun _ => [.compacted]

/-- Reports the store that was opened, and closes it. -/
def executeInit (store : Store) : Outcome :=
  match store.schemaVersion with
  | .ok schema => ⟨.ok (.initialized store.path schema), [.closed], store.close⟩
  | .error failure => ⟨.error failure, failureEvents failure, store⟩

end SessionArchive.CommandLine
