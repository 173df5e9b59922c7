import SessionArchive.CommandLine.Value

/-!
# Usage

The places that subcommands lead to, and what may be given at each: subcommands, switches and one
operand. Some switches may be given at every place.
-/

set_option autoImplicit false

namespace SessionArchive.CommandLine

/-- Where subcommands lead: the top, the four groups, and the commands themselves. -/
inductive Place where
  | top
  | init
  | version
  | session
  | sessionList
  | sessionShow
  | sessionDelete
  | sessionSearch
  | sessionCleanup
  | history
  | historyShow
  | historyAdd
  | historyClear
  | historyCleanup
  | repository
  | repositoryList
  | repositoryBranches
  | repositoryDelete
  | repositoryDeleteBranch
  | database
  | databaseStats
  | databaseCompact
  | completions
deriving Repr, DecidableEq

/-- What is given with a dash in front. -/
inductive Switch where
  | database
  | host
  | org
  | project
  | branch
  | json
  | verbose
  | quiet
  | noColor
  | help
  | version
  | all
  | limit
  | messages
  | maxAgeDays
  | maxSessions
  | command
  | commands
deriving Repr, DecidableEq

namespace Switch

/-- The long name of a switch. -/
def long : Switch → String
  | .database => "db"
  | .host => "host"
  | .org => "org"
  | .project => "project"
  | .branch => "branch"
  | .json => "json"
  | .verbose => "verbose"
  | .quiet => "quiet"
  | .noColor => "no-color"
  | .help => "help"
  | .version => "version"
  | .all => "all"
  | .limit => "limit"
  | .messages => "messages"
  | .maxAgeDays => "max-age-days"
  | .maxSessions => "max-sessions"
  | .command => "command"
  | .commands => "commands"

/-- The letter of a switch that has one. -/
def short? : Switch → Option Char
  | .verbose => some 'v'
  | .quiet => some 'q'
  | .help => some 'h'
  | .version => some 'V'
  | .all => some 'a'
  | .limit => some 'l'
  | .messages => some 'm'
  | .command => some 'c'
  | .commands => some 'c'
  | _ => none

/-- The kind of value that follows a switch, if one does. -/
def value? : Switch → Option ValueKind
  | .database => some .path
  | .host => some .text
  | .org => some .text
  | .project => some .text
  | .branch => some .text
  | .limit => some .count
  | .messages => some .count
  | .maxAgeDays => some .days
  | .maxSessions => some .count
  | _ => none

/-- Whether a switch may be given more than once at a place. -/
def repeats : Switch → Bool
  | .verbose => true
  | _ => false

/-- The environment variable that stands in for a switch that is not given. -/
def environmentName? : Switch → Option String
  | .database => some "TETHER_DB"
  | .host => some "TETHER_HOST"
  | .org => some "TETHER_ORG"
  | .project => some "TETHER_PROJECT"
  | .branch => some "TETHER_BRANCH"
  | _ => none

/-- The switches that may be given at every place. -/
def everywhere : List Switch :=
  [.database, .host, .org, .project, .branch, .json, .verbose, .quiet, .noColor, .help]

end Switch

namespace Place

/-- The subcommands at a place. -/
def children : Place → List (String × Place)
  | .top => [("init", .init), ("version", .version), ("session", .session),
      ("history", .history), ("repo", .repository), ("db", .database),
      ("completions", .completions)]
  | .session => [("list", .sessionList), ("show", .sessionShow), ("delete", .sessionDelete),
      ("search", .sessionSearch), ("cleanup", .sessionCleanup)]
  | .history => [("show", .historyShow), ("add", .historyAdd), ("clear", .historyClear),
      ("cleanup", .historyCleanup)]
  | .repository => [("list", .repositoryList), ("branches", .repositoryBranches),
      ("delete", .repositoryDelete), ("delete-branch", .repositoryDeleteBranch)]
  | .database => [("stats", .databaseStats), ("compact", .databaseCompact)]
  | _ => []

/-- The switches that may be given at a place and not everywhere. -/
def ownSwitches : Place → List Switch
  | .top => [.version]
  | .sessionList => [.all, .limit]
  | .sessionShow => [.messages]
  | .sessionSearch => [.limit]
  | .sessionCleanup => [.maxAgeDays, .maxSessions]
  | .historyShow => [.commands, .limit]
  | .historyAdd => [.command]
  | .historyClear => [.commands]
  | .historyCleanup => [.maxAgeDays]
  | _ => []

/-- All switches that may be given at a place. -/
def switches (place : Place) : List Switch := place.ownSwitches ++ Switch.everywhere

/-- The operand that must be given at a place, if there is one. -/
def operand? : Place → Option ValueKind
  | .sessionShow => some .text
  | .sessionDelete => some .text
  | .sessionSearch => some .text
  | .historyAdd => some .text
  | .repositoryBranches => some .rowId
  | .repositoryDelete => some .rowId
  | .repositoryDeleteBranch => some .rowId
  | .completions => some .shell
  | _ => none

/-- The switch with a long name at a place. -/
def findLong? (place : Place) (name : String) : Option Switch :=
  place.switches.find? fun s => s.long == name

/-- The switch with a letter at a place. -/
def findShort? (place : Place) (letter : Char) : Option Switch :=
  place.switches.find? fun s => s.short? == some letter

end Place

/-- What is wrong with a command line. -/
inductive UsageError where
  | unknownSwitch (text : String)
  | unexpectedOperand (text : String)
  | unexpectedValue (switch : Switch)
  | missingValue (switch : Switch)
  | invalidValue (text : String)
  | repeatedSwitch (switch : Switch)
  | missingCommand
  | missingOperand
deriving Repr, DecidableEq

/-- The wording of what is wrong. -/
def UsageError.message : UsageError → String
  | .unknownSwitch text => s!"unexpected argument '{text}' found"
  | .unexpectedOperand text => s!"unrecognized argument '{text}'"
  | .unexpectedValue switch => s!"no value is expected for '--{switch.long}'"
  | .missingValue switch => s!"a value is required for '--{switch.long}' but none was supplied"
  | .invalidValue text => s!"invalid value '{text}'"
  | .repeatedSwitch switch => s!"the argument '--{switch.long}' cannot be used multiple times"
  | .missingCommand => "a subcommand is required but one was not provided"
  | .missingOperand => "a required argument was not provided"

end SessionArchive.CommandLine
