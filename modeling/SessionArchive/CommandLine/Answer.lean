import SessionArchive.CommandLine.Command
import SessionArchive.CommandLine.Style
import SessionArchive.Store
import SessionArchive.Text.Excerpt

/-!
# Answers

What a command answers when it succeeds. An answer is written in one of two forms: as one JSON
document for programs, or as lines of text for people.
-/

set_option autoImplicit false

namespace SessionArchive.CommandLine

open Store (StoreStats CleanupReport SearchHit)

/-- What a command answers. -/
inductive Answer where
  | initialized (path : Option String) (schema : Option Nat)
  | version
  | sessions (scope : Option Scope) (summaries : List SessionSummary)
  | transcript (loaded : LoadedSession)
  | deletedSession (id : String)
  | hits (pattern : String) (found : List SearchHit)
  | removedSessions (report : CleanupReport) (maxAgeDays maxSessions : Nat)
  | history (kind : HistoryKind) (scope : Scope) (entries : List HistoryEntry)
  | addedHistory (kind : HistoryKind) (scope : Scope) (text : String)
  | clearedHistory (kind : HistoryKind) (scope : Scope) (removed : Nat)
  | removedHistory (removed maxAgeDays : Nat)
  | repositories (rows : List Repository)
  | branches (repositoryId : RowId) (rows : List Branch)
  | deletedRepository (id : RowId)
  | deletedBranch (id : RowId)
  | stats (path : Option String) (counts : StoreStats)
  | compacted

namespace Answer

/-! ## As JSON -/

/-- The version of the program. -/
def programVersion : String := "0.1.0"

/-- The kind of build of the program. -/
def programBuild : String := "dev"

/-- A list as JSON. -/
def listJson {α : Type} (item : α → Json) (items : List α) : Json := .array (items.map item)

/-- An answer as JSON. Confirmations have their members in order of their names. -/
def toJson : Answer → Json
  | .initialized path schema => .object [("database", .string (path.getD "")),
      ("schema_version", (schema.map Json.nat).getD .null)]
  | .version => .object [("version", .string programVersion), ("build", .string programBuild),
      ("schema_version", .nat Store.Database.currentVersion)]
  | .sessions _ summaries => .object [("sessions", listJson SessionSummary.toJson summaries),
      ("count", .nat summaries.length)]
  | .transcript loaded => loaded.toJson
  | .deletedSession id => .object [("deleted", .string id)]
  | .hits pattern found => .object [("pattern", .string pattern),
      ("hits", listJson SearchHit.toJson found), ("count", .nat found.length)]
  | .removedSessions report _ _ => report.toJson
  | .history kind scope entries => .object [("kind", kind.toJson), ("scope", scope.toJson),
      ("entries", listJson HistoryEntry.toJson entries), ("count", .nat entries.length)]
  | .addedHistory kind scope text => Json.canonicalize
      (.object [("kind", kind.toJson), ("scope", scope.toJson), ("text", .string text)])
  | .clearedHistory kind _ removed => .object [("kind", kind.toJson), ("removed", .nat removed)]
  | .removedHistory removed maxAgeDays =>
      .object [("max_age_days", .nat maxAgeDays), ("removed", .nat removed)]
  | .repositories rows => listJson Repository.toJson rows
  | .branches _ rows => listJson Branch.toJson rows
  | .deletedRepository id => .object [("deleted_repository", .int id)]
  | .deletedBranch id => .object [("deleted_branch", .int id)]
  | .stats _ counts => counts.toJson
  | .compacted => .object [("compacted", .bool true)]

/-- The JSON document of an answer: on one line for the version, on many for all else. -/
def document (answer : Answer) : String :=
  match answer with
  | .version => answer.toJson.toCompact
  | answer => answer.toJson.toIndented

/-! ## As text -/

/-- The text of a moment. -/
def timeText (time : Int64) : String := Time.minuteText time.toInt

/-- Lines with their ends. -/
def lines (texts : List String) : String := String.join (texts.map (· ++ "\n"))

/-- The width of the titles in a listing of sessions. -/
def titleWidth : Nat := 60

/-- The width of the outputs of tools in a transcript. -/
def outputWidth : Nat := 200

/-- The title of a session in a listing. -/
def title (style : Style) (summary : SessionSummary) : String :=
  if summary.firstPrompt = "" then style.paint [.dimmed] "(no prompt)"
  else Text.excerptString titleWidth summary.firstPrompt

/-- The lines of a session in a listing, with its scope in a listing of all sessions. -/
def summaryLines (style : Style) (showScope : Bool) (s : SessionSummary) : List String :=
  [s!"  {style.paint [.cyan] s.id}  {title style s}",
   s!"    {timeText s.lastUpdated} · {s.messageCount} messages · {s.provider}/{s.model}"] ++
    if showScope then [s!"    {style.paint [.dimmed] s.scope.display}"] else []

/-- The text of a listing of sessions. -/
def sessionsText (style : Style) (scope : Option Scope) (summaries : List SessionSummary) :
    String :=
  let heading := (scope.map Scope.display).getD "all repositories"
  if summaries.isEmpty then lines [s!"No sessions found for {heading}."]
  else lines (s!"Sessions for {style.paint [.bold] heading} ({summaries.length}):" :: "" ::
    summaries.flatMap (summaryLines style scope.isNone))

/-- The colour of a role. -/
def roleTone : Role → Tone
  | .user => .green
  | .assistant => .blue
  | .system => .yellow
  | .tool => .magenta

/-- The line of a part of a message. -/
def partLine (style : Style) : Part → String
  | .text text => text
  | .reasoning text => style.paint [.dimmed] text
  | .toolCall _ name input =>
    let marker := style.paint [.cyan] "→"
    s!"{marker} {name} {input.value.toCompact}"
  | .toolResult _ output isError =>
    let marker := if isError then style.paint [.red] "✗" else style.paint [.cyan] "←"
    s!"{marker} {Text.excerptString outputWidth output}"
  | .image mediaType _ => style.paint [.dimmed] s!"<{mediaType}>"

/-- The lines of a message. -/
def messageLines (style : Style) (message : Message) : List String :=
  let role := style.paint [roleTone message.role] message.role.name
  s!"[{role}] {style.paint [.dimmed] (timeText message.createdAt)}" ::
    message.parts.map (partLine style) ++ [""]

/-- The text of a session with its transcript. -/
def transcriptText (style : Style) (loaded : LoadedSession) : String :=
  let session := loaded.session
  lines ([s!"Session {style.paint [.bold, .cyan] session.id}",
    s!"  Scope:    {loaded.scope.display}",
    s!"  Provider: {session.provider}/{session.model}",
    s!"  Dir:      {session.workingDir}",
    s!"  Created:  {timeText session.createdAt}",
    s!"  Updated:  {timeText session.lastUpdated}",
    ""] ++ session.messages.flatMap (messageLines style))

/-- A text on one line, each line feed a blank. -/
def onOneLine (text : String) : String :=
  String.ofList (text.toList.map fun c => if c = '\n' then ' ' else c)

/-- The lines of a hit of a search. -/
def hitLines (style : Style) (hit : SearchHit) : List String :=
  let time := style.paint [.dimmed] (timeText hit.createdAt)
  [s!"{style.paint [.cyan] hit.sessionId} #{hit.sequence.toInt} [{hit.role}] {time}",
   s!"  {onOneLine hit.snippet}"]

/-- A row number at the right end of a field of four places. -/
def rowField (style : Style) (id : RowId) : String :=
  style.paintField 4 [.cyan] (toString id)

/-- The lines of the row counts. -/
def statsLines (stats : StoreStats) : List String :=
  [s!"  Repositories:    {stats.repositories}",
   s!"  Branches:        {stats.branches}",
   s!"  Sessions:        {stats.sessions}",
   s!"  Messages:        {stats.messages}",
   s!"  Prompt history:  {stats.promptHistory}",
   s!"  Command history: {stats.commandHistory}"]

/-- The text of an answer. -/
def text (style : Style) : Answer → String
  | .initialized path schema =>
    let file := path.getD ""
    lines (["Initialized Tether database", s!"  Path:   {file}"] ++
      (schema.map fun v => s!"  Schema: v{v}").toList)
  | .version =>
    let schema := Store.Database.currentVersion
    lines [s!"tether version {programVersion} ({programBuild}, schema v{schema})"]
  | .sessions scope summaries => sessionsText style scope summaries
  | .transcript loaded => transcriptText style loaded
  | .deletedSession id => lines [s!"Deleted session {id}"]
  | .hits pattern found =>
    if found.isEmpty then lines [s!"No messages match `{pattern}`."]
    else lines (found.flatMap (hitLines style))
  | .removedSessions report days count => lines
      [s!"Removed {report.total} session(s): {report.expired} older than {days} day(s), " ++
        s!"{report.overLimit} over the limit of {count}"]
  | .history kind scope entries =>
    if entries.isEmpty then lines [s!"No {kind.name} history for {scope.display}."]
    else lines (entries.map fun e => s!"{style.paint [.dimmed] (timeText e.timestamp)}  {e.text}")
  | .addedHistory kind scope _ => lines [s!"Added {kind.name} to {scope.display}"]
  | .clearedHistory kind scope removed =>
    lines [s!"Cleared {removed} {kind.name} entries for {scope.display}"]
  | .removedHistory removed days =>
    lines [s!"Removed {removed} history entries older than {days} day(s)"]
  | .repositories rows =>
    if rows.isEmpty then lines ["No repositories recorded."]
    else lines (rows.map fun r =>
      s!"{rowField style r.id}  {r.host}/{r.org}/{r.project}")
  | .branches id rows =>
    if rows.isEmpty then lines [s!"No branches recorded for repository {id}."]
    else lines (rows.map fun b => s!"{rowField style b.id}  {b.name}")
  | .deletedRepository id => lines [s!"Deleted repository {id} and everything under it"]
  | .deletedBranch id => lines [s!"Deleted branch {id} with its sessions and history"]
  | .stats path counts =>
    lines ((path.map fun p => style.paint [.bold] p).toList ++ statsLines counts)
  | .compacted => lines ["Database compacted"]

/-- An answer as it is printed. -/
def printed (style : Style) (json : Bool) (answer : Answer) : String :=
  if json then answer.document ++ "\n" else answer.text style

end Answer

end SessionArchive.CommandLine
