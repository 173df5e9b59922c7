import SessionArchive.Scope

/-!
# Prompt and command history

Each branch has two streams of remembered texts, prompts and commands. A `HistoryEntry` is one
stored text with the time at which it was added.
-/

set_option autoImplicit false

namespace SessionArchive

open Json (Reader Field)

/-- Which of the two streams of a branch. -/
inductive HistoryKind where
  | prompt
  | command
deriving Repr, DecidableEq

namespace HistoryKind

/-- The name of a stream. -/
def name : HistoryKind → String
  | .prompt => "prompt"
  | .command => "command"

/-- The table that holds a stream. -/
def table : HistoryKind → String
  | .prompt => "prompt_history"
  | .command => "command_history"

/-- The column that holds the texts of a stream. -/
def column : HistoryKind → String
  | .prompt => "prompt"
  | .command => "command"

/-- The streams by name. -/
def names : List (String × HistoryKind) := [("prompt", .prompt), ("command", .command)]

/-- Reads a stream's name. -/
def read : Reader HistoryKind := Json.readName names

/-- A stream's name as JSON. -/
def toJson (kind : HistoryKind) : Json := .string kind.name

end HistoryKind

/-- A remembered text. -/
structure HistoryEntry where
  id : RowId
  branchId : RowId
  text : String
  timestamp : Int64
deriving Repr, DecidableEq

namespace HistoryEntry

/-- An entry as JSON. -/
def toJson (entry : HistoryEntry) : Json :=
  .object [("id", .int entry.id), ("branch_id", .int entry.branchId),
    ("text", .string entry.text), ("timestamp", .int entry.timestamp.toInt)]

/-- The fields of an entry. -/
abbrev fields : List (Field Reader) :=
  [.required "id" Json.readSigned, .required "branch_id" Json.readSigned,
   .required "text" Json.readString, .required "timestamp" Json.readInt64]

/-- Reads an entry. -/
def read : Reader HistoryEntry :=
  Json.readRecord "struct HistoryEntry" fields fun (id, branchId, text, timestamp, ()) =>
    ⟨id, branchId, text, timestamp⟩

end HistoryEntry

end SessionArchive
