import SessionArchive.Store.Sessions

/-!
# History in the tables

Each branch has two streams of entries, ordered by time and, within one second, by id. To append
adds an entry at the end of a stream and may then drop all but the latest ones.
-/

set_option autoImplicit false

namespace SessionArchive.Store

/-- Whether an entry comes no later than another. -/
def historyLe (a b : HistoryEntry) : Bool :=
  a.timestamp.toInt < b.timestamp.toInt || (a.timestamp == b.timestamp && a.id ≤ b.id)

/-- Entries, the latest first. -/
def latestFirst (entries : List HistoryEntry) : List HistoryEntry :=
  entries.mergeSort fun a b => historyLe b a

namespace Database

/-- The entries of a branch in a stream. -/
def historyOf (db : Database) (kind : HistoryKind) (branchId : RowId) : List HistoryEntry :=
  (db.history kind).rows.filter fun entry => entry.branchId == branchId

/-- The latest entries of a scope in a stream, in order; none of a scope that is not there. -/
def loadHistory (db : Database) (kind : HistoryKind) (scope : Scope) (limit : Nat) :
    Except Failure (List HistoryEntry) := do
  match ← db.findScope scope with
  | none => .ok []
  | some branch =>
    db.read s!"load_{kind.name}_history" scope.display fun db => do
      db.requireAll [.history kind]
      -- the limit keeps the latest entries, which are then put in order
      .ok (limited limit (latestFirst (db.historyOf kind branch.id))).reverse

end Database

namespace Write

/-- Drops all entries of a branch in a stream but the latest ones. -/
def trimHistory (kind : HistoryKind) (branchId : RowId) (keep : Nat) : Write Nat := do
  let kept := ((latestFirst ((← get).historyOf kind branchId)).take keep).map HistoryEntry.id
  deleteHistory kind fun entry => entry.branchId == branchId && !kept.contains entry.id

/-- Adds a text at the end of a stream; a limit of zero is none. -/
def appendHistory (kind : HistoryKind) (scope : Scope) (text : String) (maxEntries : Nat)
    (now : Int64) : Write Nat := do
  let branchId ← resolveScope scope
  insertHistory kind branchId text now
  if maxEntries = 0 then pure 0 else trimHistory kind branchId maxEntries

/-- Removes all entries of a branch from a stream. -/
def clearHistory (kind : HistoryKind) (branchId : RowId) : Write Nat :=
  deleteHistory kind fun entry => entry.branchId == branchId

/-- Removes the entries of both streams that are older than a number of days. -/
def expireHistory (now : Int64) (days : Nat) : Write Nat := do
  let old := fun entry : HistoryEntry => entry.timestamp.toInt < ageCutoff now days
  let prompts ← deleteHistory .prompt fun entry => old entry
  let commands ← deleteHistory .command fun entry => old entry
  pure (prompts + commands)

end Write

end SessionArchive.Store
