import SessionArchive.Json.Reader
import SessionArchive.Store.Database

/-!
# The file of a database

A database is written to its file as one JSON document, `Database.toJson`, and read back from it by
`Database.ofText?`. Stored values that are neither numbers nor text are written as an object that
names their kind and lists their bytes.
-/

set_option autoImplicit false

namespace SessionArchive.Store

/-! ## Access to the document -/

/-- The member of an object with a name. -/
def member? (json : Json) (name : String) : Option Json :=
  match json with
  | .object members => members.lookup name
  | _ => none

/-- The integer that a value is. -/
def integer? : Json → Option Int
  | .number (.integer n) => some n
  | _ => none

/-- The string that a value is. -/
def string? : Json → Option String
  | .string s => some s
  | _ => none

/-- The items of the array that a value is, each read in the same way. -/
def items? {α : Type} (item? : Json → Option α) : Json → Option (List α)
  | .array items => items.mapM item?
  | _ => none

/-- The integer in a member. -/
def integerIn? (json : Json) (name : String) : Option Int := (member? json name).bind integer?

/-- The moment in a member. -/
def momentIn? (json : Json) (name : String) : Option Int64 :=
  (integerIn? json name).map Int64.ofInt

/-- The string in a member. -/
def stringIn? (json : Json) (name : String) : Option String := (member? json name).bind string?

/-! ## Stored values -/

/-- Bytes as JSON. -/
def bytesJson (bytes : List UInt8) : Json := .array (bytes.map fun b => .nat b.toNat)

/-- The bytes that a value lists. -/
def bytes? : Json → Option (List UInt8) :=
  items? fun item => (integer? item).map fun n => UInt8.ofNat n.toNat

/-- A stored value as JSON. -/
def Cell.toJson : Cell → Json
  | .integer n => .int n
  | .real x => .number (.float x)
  | .text s => .string s
  | .rawText bytes => .object [("text", bytesJson bytes)]
  | .blob bytes => .object [("blob", bytesJson bytes)]

/-- The stored value that JSON means. -/
def Cell.ofJson? : Json → Option Cell
  | .number (.integer n) => some (.integer n)
  | .number (.float x) => some (.real x)
  | .string s => some (.text s)
  | .object [("text", bytes)] => (bytes? bytes).map Cell.rawText
  | .object [("blob", bytes)] => (bytes? bytes).map Cell.blob
  | _ => none

/-- The stored value in a member. -/
def cellIn? (json : Json) (name : String) : Option Cell := (member? json name).bind Cell.ofJson?

/-! ## Rows -/

/-- The repository that JSON means. -/
def repositoryOf? (json : Json) : Option Repository := do
  some ⟨← integerIn? json "id", ← stringIn? json "host", ← stringIn? json "org",
    ← stringIn? json "project"⟩

/-- The branch that JSON means. -/
def branchOf? (json : Json) : Option Branch := do
  some ⟨← integerIn? json "id", ← integerIn? json "repository_id", ← stringIn? json "name"⟩

/-- The entry that JSON means. -/
def entryOf? (json : Json) : Option HistoryEntry := do
  some ⟨← integerIn? json "id", ← integerIn? json "branch_id", ← stringIn? json "text",
    ← momentIn? json "timestamp"⟩

/-- The row of a session as JSON. -/
def SessionRow.toJson (row : SessionRow) : Json :=
  .object [("id", .string row.id), ("branch_id", .int row.branchId),
    ("created_at", .int row.createdAt.toInt), ("last_updated", .int row.lastUpdated.toInt),
    ("first_prompt", .string row.firstPrompt), ("provider", .string row.provider),
    ("model", .string row.model), ("working_dir", .string row.workingDir),
    ("save_seq", .int row.saveSeq)]

/-- The row of a session that JSON means. -/
def sessionRowOf? (json : Json) : Option SessionRow := do
  some ⟨← stringIn? json "id", ← integerIn? json "branch_id", ← momentIn? json "created_at",
    ← momentIn? json "last_updated", ← stringIn? json "first_prompt",
    ← stringIn? json "provider", ← stringIn? json "model", ← stringIn? json "working_dir",
    ← integerIn? json "save_seq"⟩

/-- The row of a message as JSON. -/
def MessageRow.toJson (row : MessageRow) : Json :=
  .object [("id", .int row.id), ("session_id", .string row.sessionId),
    ("sequence", row.sequence.toJson), ("role", row.role.toJson),
    ("content", row.content.toJson), ("created_at", row.createdAt.toJson)]

/-- The row of a message that JSON means. -/
def messageRowOf? (json : Json) : Option MessageRow := do
  some ⟨← integerIn? json "id", ← stringIn? json "session_id", ← cellIn? json "sequence",
    ← cellIn? json "role", ← cellIn? json "content", ← cellIn? json "created_at"⟩

/-- A version of the layout as JSON. -/
def VersionRow.toJson (row : VersionRow) : Json :=
  .object [("version", .nat row.version), ("applied_at", .int row.appliedAt.toInt)]

/-- The version of the layout that JSON means. -/
def versionRowOf? (json : Json) : Option VersionRow := do
  some ⟨(← integerIn? json "version").toNat, ← momentIn? json "applied_at"⟩

/-! ## Tables -/

/-- A table as JSON. -/
def Table.toJson {α : Type} (row : α → Json) (table : Table α) : Json :=
  .object [("last_id", .int table.lastId), ("rows", .array (table.rows.map row))]

/-- The table in a member. -/
def tableIn? {α : Type} (row? : Json → Option α) (json : Json) (name : String) :
    Option (Table α) := do
  let table ← member? json name
  some ⟨← (member? table "rows").bind (items? row?), ← integerIn? table "last_id"⟩

namespace Database

/-- The mark of a file that holds a database. -/
def formatMark : String := "session archive"

/-- A database as JSON. What another program made of the tables, missing tables and standing
rejections, is not kept. -/
def toJson (db : Database) : Json :=
  .object [("format", .string formatMark),
    ("schema_version", .array (db.versions.map VersionRow.toJson)),
    ("repositories", db.repositories.toJson Repository.toJson),
    ("branches", db.branches.toJson Branch.toJson),
    ("sessions", db.sessions.toJson SessionRow.toJson),
    ("messages", db.messages.toJson MessageRow.toJson),
    ("prompt_history", db.prompts.toJson HistoryEntry.toJson),
    ("command_history", db.commands.toJson HistoryEntry.toJson)]

/-- The database that JSON means. -/
def ofJson? (json : Json) : Option Database := do
  let mark ← stringIn? json "format"
  if mark = formatMark then
    some
      { versions := ← (member? json "schema_version").bind (items? versionRowOf?)
        repositories := ← tableIn? repositoryOf? json "repositories"
        branches := ← tableIn? branchOf? json "branches"
        sessions := ← tableIn? sessionRowOf? json "sessions"
        messages := ← tableIn? messageRowOf? json "messages"
        prompts := ← tableIn? entryOf? json "prompt_history"
        commands := ← tableIn? entryOf? json "command_history"
        missing := []
        rejections := [] }
  else none

/-- The text of the file of a database. -/
def toText (db : Database) : String := db.toJson.toCompact ++ "\n"

/-- The database in a file, if its text is that of one. -/
def ofText? (text : String) : Option Database :=
  match Json.read Json.anyValue text.toList with
  | .ok json => ofJson? json
  | .error _ => none

end Database

end SessionArchive.Store
