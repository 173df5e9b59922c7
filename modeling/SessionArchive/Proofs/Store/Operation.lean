import SessionArchive.Store

/-!
# Runs of operations

What a holder of a store can do with it, as data. A `Query` is one of the operations that read, an
`Operation` one of all of them, and `Operation.run` performs it at a time of the clock. Within
`Operation.mutate` a caller inserts repositories one after another, looking at each outcome before
the next, and ends as it likes: `Insertions` is such a sequence. `Store.play` performs a whole run.
-/

set_option autoImplicit false

namespace SessionArchive

open Store (Database Write StoreStats CleanupReport SearchHit)

/-! ## Insertions of repositories -/

/-- What a caller does within one `mutate`: it inserts repositories, each choice depending on the
outcomes so far, and ends with an answer or a failure. -/
inductive Insertions where
  | done (answer : Except Failure (List RowId))
  | insert (host : Option String) (org project : String) (next : Except Failure RowId → Insertions)

/-- The statements that the insertions amount to; one that fails leaves the tables alone. -/
def Insertions.write : Insertions → Write (List RowId)
  | .done (.ok ids) => pure ids
  | .done (.error failure) => throw failure
  | .insert host org project next => fun db =>
    match Write.insertRepository host org project db with
    | .ok id after => (next (.ok id)).write after
    | .error failure after => (next (.error failure)).write after

/-! ## Queries -/

/-- An operation that only reads. -/
inductive Query where
  | getRepository (host org project : String)
  | getBranch (repositoryId : RowId) (name : String)
  | findScope (scope : Scope)
  | listRepositories
  | listBranches (repositoryId : RowId)
  | loadSession (id : String)
  | listSessions (scope : Scope) (limit : Nat)
  | listAllSessions (limit : Nat)
  | searchMessages (pattern : String) (limit : Nat)
  | loadHistory (kind : HistoryKind) (scope : Scope) (limit : Nat)
  | stats
  | schemaVersion
  | compact

namespace Query

/-- The answers to a query. -/
def Answer : Query → Type
  | .getRepository .. => Option Repository
  | .getBranch .. => Option Branch
  | .findScope _ => Option Branch
  | .listRepositories => List Repository
  | .listBranches _ => List Branch
  | .loadSession _ => LoadedSession
  | .listSessions .. => List SessionSummary
  | .listAllSessions _ => List SessionSummary
  | .searchMessages .. => List SearchHit
  | .loadHistory .. => List HistoryEntry
  | .stats => StoreStats
  | .schemaVersion => Option Nat
  | .compact => Unit

/-- What a store answers. -/
def answer (store : Store) : (query : Query) → Except Failure query.Answer
  | .getRepository host org project => store.getRepository host org project
  | .getBranch repositoryId name => store.getBranch repositoryId name
  | .findScope scope => store.findScope scope
  | .listRepositories => store.listRepositories
  | .listBranches repositoryId => store.listBranches repositoryId
  | .loadSession id => store.loadSession id
  | .listSessions scope limit => store.listSessions scope limit
  | .listAllSessions limit => store.listAllSessions limit
  | .searchMessages pattern limit => store.searchMessages pattern limit
  | .loadHistory kind scope limit => store.loadHistory kind scope limit
  | .stats => store.stats
  | .schemaVersion => store.schemaVersion
  | .compact => store.compact

end Query

/-! ## Operations -/

/-- An operation on an open store. -/
inductive Operation where
  | read (query : Query)
  | resolveRepository (host org project : String)
  | resolveBranch (repositoryId : RowId) (name : String)
  | resolveScope (scope : Scope)
  | deleteRepository (id : RowId)
  | deleteBranch (id : RowId)
  | saveSession (session : Session) (scope : Scope)
  | deleteSession (id : String)
  | cleanupSessions (maxAgeDays maxSessions : Nat)
  | appendHistory (kind : HistoryKind) (scope : Scope) (text : String) (maxEntries : Nat)
  | clearHistory (kind : HistoryKind) (scope : Scope)
  | cleanupHistory (maxAgeDays : Nat)
  | mutate (name : String) (insertions : Insertions)

namespace Operation

/-- The answers to an operation. -/
def Answer : Operation → Type
  | .read query => query.Answer
  | .resolveRepository .. => RowId
  | .resolveBranch .. => RowId
  | .resolveScope _ => RowId
  | .deleteRepository _ => Unit
  | .deleteBranch _ => Unit
  | .saveSession .. => Session
  | .deleteSession _ => Unit
  | .cleanupSessions .. => CleanupReport
  | .appendHistory .. => Unit
  | .clearHistory .. => Nat
  | .cleanupHistory _ => Nat
  | .mutate .. => List RowId

/-- Performs an operation at a time: the answer, and the store afterwards. -/
def run (now : Int64) (store : Store) :
    (operation : Operation) → Except Failure operation.Answer × Store
  | .read query => (query.answer store, store)
  | .resolveRepository host org project => store.resolveRepository host org project
  | .resolveBranch repositoryId name => store.resolveBranch repositoryId name
  | .resolveScope scope => store.resolveScope scope
  | .deleteRepository id => store.deleteRepository id
  | .deleteBranch id => store.deleteBranch id
  | .saveSession session scope => store.saveSession session scope now
  | .deleteSession id => store.deleteSession id
  | .cleanupSessions maxAgeDays maxSessions => store.cleanupSessions maxAgeDays maxSessions now
  | .appendHistory kind scope text maxEntries => store.appendHistory kind scope text maxEntries now
  | .clearHistory kind scope => store.clearHistory kind scope
  | .cleanupHistory maxAgeDays => store.cleanupHistory maxAgeDays now
  | .mutate name insertions => store.mutate name insertions.write

end Operation

/-! ## Runs -/

/-- An open store without rows. -/
def Store.fresh (path : Option String) (start : Int64) : Store :=
  ⟨path, some (Database.new start)⟩

/-- The store after a run of operations, each at a time of the clock. -/
def Store.play (store : Store) : List (Int64 × Operation) → Store
  | [] => store
  | (now, operation) :: rest => (operation.run now store).2.play rest

theorem Store.play_append (store : Store) (first second : List (Int64 × Operation)) :
    store.play (first ++ second) = (store.play first).play second := by
  induction first generalizing store with
  | nil => rfl
  | cons step rest ih => exact ih _

/-- What each operation of a run keeps, the whole run keeps. -/
theorem Store.play_induction {motive : Store → Prop} (store : Store) (hstart : motive store)
    (hstep : ∀ store now (operation : Operation), motive store →
      motive (operation.run now store).2)
    (run : List (Int64 × Operation)) : motive (store.play run) := by
  induction run generalizing store with
  | nil => exact hstart
  | cons step rest ih => exact ih _ (hstep store step.1 step.2 hstart)

end SessionArchive
