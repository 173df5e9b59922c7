import SessionArchive.Store.Sessions

/-!
# Reports

What the store reports about itself: how many rows its tables hold, and what a retention pass
removed.
-/

set_option autoImplicit false

namespace SessionArchive.Store

open Json (Reader Field)

/-- The number of rows of each table. -/
structure StoreStats where
  repositories : Nat
  branches : Nat
  sessions : Nat
  messages : Nat
  promptHistory : Nat
  commandHistory : Nat
deriving Repr, DecidableEq

namespace StoreStats

/-- The number of rows of all tables. -/
def total (stats : StoreStats) : Nat :=
  stats.repositories + stats.branches + stats.sessions + stats.messages + stats.promptHistory +
    stats.commandHistory

/-- The counts as JSON. -/
def toJson (stats : StoreStats) : Json :=
  .object [("repositories", .nat stats.repositories), ("branches", .nat stats.branches),
    ("sessions", .nat stats.sessions), ("messages", .nat stats.messages),
    ("prompt_history", .nat stats.promptHistory), ("command_history", .nat stats.commandHistory)]

/-- The fields of the counts. -/
abbrev fields : List (Field Reader) :=
  [.required "repositories" Json.readCount, .required "branches" Json.readCount,
   .required "sessions" Json.readCount, .required "messages" Json.readCount,
   .required "prompt_history" Json.readCount, .required "command_history" Json.readCount]

/-- Reads the counts. -/
def read : Reader StoreStats :=
  Json.readRecord "struct StoreStats" fields
    fun (repositories, branches, sessions, messages, promptHistory, commandHistory, ()) =>
      ⟨repositories, branches, sessions, messages, promptHistory, commandHistory⟩

end StoreStats

namespace CleanupReport

/-- A report as JSON. -/
def toJson (report : CleanupReport) : Json :=
  .object [("expired", .nat report.expired), ("over_limit", .nat report.overLimit)]

/-- The fields of a report. -/
abbrev fields : List (Field Reader) :=
  [.required "expired" Json.readCount, .required "over_limit" Json.readCount]

/-- Reads a report. -/
def read : Reader CleanupReport :=
  Json.readRecord "struct CleanupReport" fields fun (expired, overLimit, ()) =>
    ⟨expired, overLimit⟩

end CleanupReport

namespace Database

/-- The number of rows of each table. -/
def stats (db : Database) : Except Failure StoreStats := do
  db.requireAll TableName.counted
  .ok ⟨db.repositories.rows.length, db.branches.rows.length, db.sessions.rows.length,
    db.messages.rows.length, db.prompts.rows.length, db.commands.rows.length⟩

/-- The greatest version of the layout that was applied, if any. -/
def schemaVersion (db : Database) : Except Failure (Option Nat) := do
  db.requireAll [.schemaVersion]
  .ok (db.versions.map VersionRow.version).max?

end Database

end SessionArchive.Store
