import SessionArchive.CommandLine.Command
import SessionArchive.CommandLine.Style
import SessionArchive.Failure
import SessionArchive.Text.Quoted

/-!
# The log

What a command does on the way is told in events. `LogFilter` decides which of them are written:
those of at least a severity, which may differ by the source of the event. A filter is chosen by how
often the option for verbosity is given, or by a variable that holds directives: severities, and
names of sources with a severity each.
-/

set_option autoImplicit false

namespace SessionArchive.CommandLine

/-- How severe an event is. -/
inductive Severity where
  | error
  | warn
  | info
  | debug
  | trace
deriving Repr, DecidableEq

namespace Severity

/-- The place of a severity, the greatest severity first. -/
def rank : Severity → Nat
  | .error => 1
  | .warn => 2
  | .info => 3
  | .debug => 4
  | .trace => 5

/-- The name of a severity, which fills five places. -/
def label : Severity → String
  | .error => "ERROR"
  | .warn => " WARN"
  | .info => " INFO"
  | .debug => "DEBUG"
  | .trace => "TRACE"

/-- The colour of a severity. -/
def tone : Severity → Tone
  | .error => .red
  | .warn => .yellow
  | .info => .green
  | .debug => .blue
  | .trace => .magenta

end Severity

/-- The parts of the program that tell what they do. -/
inductive EventSource where
  | store
  | identity
  | sessions
  | search
  | history
deriving Repr, DecidableEq

/-- The name of a part. -/
def EventSource.name : EventSource → String
  | .store => "tether::storage::sqlite"
  | .identity => "tether::storage::identity"
  | .sessions => "tether::storage::sessions"
  | .search => "tether::storage::search"
  | .history => "tether::storage::history"

/-- Something that happened, with what it happened to. -/
structure Event where
  severity : Severity
  source : EventSource
  message : String
  fields : List (String × String)
deriving Repr, DecidableEq

namespace Event

/-- The line of an event. -/
def line (event : Event) (style : Style) : String :=
  let field := fun f : String × String =>
    " " ++ style.paint [.italic] f.1 ++ style.paint [.dimmed] "=" ++ f.2
  style.paint [event.severity.tone] event.severity.label ++ " " ++
    style.paint [.dimmed] event.source.name ++ style.paint [.dimmed] ":" ++ " " ++
    event.message ++ String.join (event.fields.map field) ++ "\n"

/-! ## The events -/

/-- A store was opened. -/
def opened (path : String) : Event := ⟨.info, .store, "Opened store", [("path", path)]⟩

/-- A store was closed. -/
def closed : Event := ⟨.info, .store, "Closed store", []⟩

/-- A store was compacted. -/
def compacted : Event := ⟨.info, .store, "Compacted store", []⟩

/-- Nothing was changed because something failed on the way. -/
def rolledBack (operation : String) (fault : Store.Fault) : Event :=
  ⟨.debug, .store, "Transaction rolled back",
    [("op", Text.quoted operation), ("error", fault.message)]⟩

/-- A repository was recorded. -/
def createdRepository (repository : Repository) : Event :=
  ⟨.debug, .identity, "Created repository",
    [("id", toString repository.id), ("host", Text.quoted repository.host),
     ("org", Text.quoted repository.org), ("project", Text.quoted repository.project)]⟩

/-- A branch was recorded. -/
def createdBranch (branch : Branch) : Event :=
  ⟨.debug, .identity, "Created branch",
    [("id", toString branch.id), ("repository_id", toString branch.repositoryId),
     ("name", Text.quoted branch.name)]⟩

/-- A repository was deleted. -/
def deletedRepository (id : RowId) : Event :=
  ⟨.info, .identity, "Deleted repository", [("repository_id", toString id)]⟩

/-- A branch was deleted. -/
def deletedBranch (id : RowId) : Event :=
  ⟨.info, .identity, "Deleted branch", [("branch_id", toString id)]⟩

/-- A session was loaded. -/
def loadedSession (id : String) (messages : Nat) : Event :=
  ⟨.debug, .sessions, "Loaded session",
    [("session_id", Text.quoted id), ("messages", toString messages)]⟩

/-- A session was deleted. -/
def deletedSession (id : String) : Event :=
  ⟨.debug, .sessions, "Deleted session", [("session_id", Text.quoted id)]⟩

/-- Sessions were removed by the retention pass. -/
def removedSessions (expired overLimit maxAgeDays maxSessions : Nat) : Event :=
  ⟨.info, .sessions, "Removed old sessions",
    [("expired", toString expired), ("over_limit", toString overLimit),
     ("max_age_days", toString maxAgeDays), ("max_sessions", toString maxSessions)]⟩

/-- Messages were searched. -/
def searched (pattern : String) (scanned hits : Nat) : Event :=
  ⟨.debug, .search, "Searched messages",
    [("pattern", Text.quoted pattern), ("scanned", toString scanned), ("hits", toString hits)]⟩

/-- An entry was added to a stream of history. -/
def appendedHistory (kind : HistoryKind) (scope : Scope) (trimmed : Nat) : Event :=
  ⟨.debug, .history, "Appended history entry",
    [("kind", Text.quoted kind.name), ("scope", scope.display), ("trimmed", toString trimmed)]⟩

/-- A stream of history was cleared. -/
def clearedHistory (kind : HistoryKind) (scope : Scope) (removed : Nat) : Event :=
  ⟨.debug, .history, "Cleared history",
    [("kind", Text.quoted kind.name), ("scope", scope.display), ("removed", toString removed)]⟩

/-- Entries of history were removed by the retention pass. -/
def removedHistory (removed maxAgeDays : Nat) : Event :=
  ⟨.info, .history, "Removed old history entries",
    [("removed", toString removed), ("max_age_days", toString maxAgeDays)]⟩

end Event

/-! ## Filters -/

/-- A rule of a filter: from sources whose name begins with `source`, events up to a rank are
written. -/
structure LogDirective where
  source : String
  greatestRank : Nat
deriving Repr, DecidableEq

/-- Which events are written; the directive with the longest name that fits decides. -/
structure LogFilter where
  directives : List LogDirective
deriving Repr, DecidableEq

namespace LogFilter

/-- The filter that lets nothing through. -/
def silent : LogFilter := ⟨[]⟩

/-- The directive of two that decides, the later one where both are as long. -/
def decisive (best : Option LogDirective) (d : LogDirective) : Option LogDirective :=
  match best with
  | none => some d
  | some b => if b.source.length ≤ d.source.length then some d else some b

/-- Whether an event is written. -/
def allows (filter : LogFilter) (event : Event) : Bool :=
  match (filter.directives.filter fun d => event.source.name.startsWith d.source).foldl
      decisive none with
  | none => false
  | some d => event.severity.rank ≤ d.greatestRank

/-- The filter of a degree of verbosity. -/
def ofVerbosity : Nat → LogFilter
  | 0 => ⟨[⟨"", 2⟩]⟩
  | 1 => ⟨[⟨"", 3⟩]⟩
  | 2 => ⟨[⟨"", 4⟩]⟩
  | _ => ⟨[⟨"", 5⟩]⟩

/-- The ranks by name, in small letters, and by number. -/
def rankNames : List (String × Nat) :=
  [("off", 0), ("error", 1), ("warn", 2), ("info", 3), ("debug", 4), ("trace", 5),
   ("0", 0), ("1", 1), ("2", 2), ("3", 3), ("4", 4), ("5", 5)]

/-- The rank that a text names. -/
def rank? (text : List Char) : Option Nat :=
  rankNames.lookup (String.ofList (text.map Char.toLower))

/-- Whether a character may stand in the name of a source. -/
def isNameChar (c : Char) : Bool := c.isAlphanum || c == '_' || c == ':' || c == '-'

/-- Reads a directive: a rank, a name, or a name, an equals sign and a rank, which may be left
out. -/
def directive? (text : List Char) : Option LogDirective :=
  match rank? text with
  | some rank => some ⟨"", rank⟩
  | none =>
    let name := text.takeWhile isNameChar
    -- a rank before the equals sign names no source
    let source := if (rank? name).isSome then "" else String.ofList name
    if name.isEmpty then none
    else
      match text.drop name.length with
      | [] => some ⟨source, 5⟩
      | ['='] => some ⟨source, 5⟩
      | '=' :: rank => (rank? rank).map fun rank => ⟨source, rank⟩
      | _ => none

/-- The pieces of a list of directives. -/
def pieces (text : String) : List (List Char) :=
  (Text.splitOn ',' text.toList).filter (!·.isEmpty)

/-- The filter of a list of directives, those that cannot be read left aside. Without any directive,
errors alone are written. -/
def ofDirectives (text : String) : LogFilter :=
  match (pieces text).filterMap directive? with
  | [] => ⟨[⟨"", 1⟩]⟩
  | directives => ⟨directives⟩

/-- What is said about the directives that cannot be read. -/
def complaints (text : String) : String :=
  String.join (((pieces text).filter fun piece => (directive? piece).isNone).map fun piece =>
    s!"ignoring `{String.ofList piece}`: invalid filter directive\n")

end LogFilter

/-- How the log is written. -/
structure Log where
  filter : LogFilter
  style : Style
  preamble : String
deriving Repr, DecidableEq

namespace Log

/-- The style of the log: plain where a variable asks for it. -/
def styleOf (environment : List (String × String)) : Style :=
  match environment.lookup "NO_COLOR" with
  | some value => ⟨value = ""⟩
  | none => ⟨true⟩

/-- How the log of a command is written. -/
def ofOptions (environment : List (String × String)) (options : Options) : Log :=
  let style := styleOf environment
  if options.quiet then ⟨.silent, style, ""⟩
  else
    match environment.lookup "RUST_LOG" with
    | some text => ⟨.ofDirectives text, style, LogFilter.complaints text⟩
    | none => ⟨.ofVerbosity options.verbosity, style, ""⟩

/-- The text of a list of events. -/
def text (log : Log) (events : List Event) : String :=
  log.preamble ++ String.join ((events.filter log.filter.allows).map fun e => e.line log.style)

end Log

end SessionArchive.CommandLine
