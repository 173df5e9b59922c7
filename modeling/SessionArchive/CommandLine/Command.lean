import SessionArchive.History
import SessionArchive.Surroundings

/-!
# Commands

What a command line asks for: one of the commands with its arguments, and the options that every
command has.
-/

set_option autoImplicit false

namespace SessionArchive.CommandLine

/-- The shells for which completions are written. -/
inductive Shell where
  | bash
  | zsh
  | fish
  | powerShell
  | elvish
deriving Repr, DecidableEq

/-- The shells by name. -/
def Shell.names : List (String × Shell) :=
  [("bash", .bash), ("zsh", .zsh), ("fish", .fish), ("power-shell", .powerShell),
   ("elvish", .elvish)]

/-- Commands on stored sessions. A limit that is left out is taken from the settings. -/
inductive SessionCommand where
  | list (all : Bool) (limit : Option Nat)
  | transcript (id : String) (last : Option Nat)
  | delete (id : String)
  | search (pattern : String) (limit : Nat)
  | cleanup (maxAgeDays maxSessions : Option Nat)
deriving Repr, DecidableEq

/-- Commands on the two streams of history. -/
inductive HistoryCommand where
  | list (kind : HistoryKind) (limit : Nat)
  | add (kind : HistoryKind) (text : String)
  | clear (kind : HistoryKind)
  | cleanup (maxAgeDays : Option Nat)
deriving Repr, DecidableEq

/-- Commands on repositories and branches. -/
inductive RepositoryCommand where
  | list
  | branches (id : RowId)
  | delete (id : RowId)
  | deleteBranch (id : RowId)
deriving Repr, DecidableEq

/-- Commands on the database as a whole. -/
inductive DatabaseCommand where
  | stats
  | compact
deriving Repr, DecidableEq

/-- What a command line asks for. -/
inductive Command where
  | init
  | version
  | session (command : SessionCommand)
  | history (command : HistoryCommand)
  | repository (command : RepositoryCommand)
  | database (command : DatabaseCommand)
  | completions (shell : Shell)
deriving Repr, DecidableEq

/-- The options that every command has. -/
structure Options where
  database : Option String
  scope : ScopeOverrides
  json : Bool
  verbosity : Nat
  quiet : Bool
  plain : Bool
deriving Repr, DecidableEq

/-- A command with its options. -/
structure Invocation where
  options : Options
  command : Command
deriving Repr, DecidableEq

end SessionArchive.CommandLine
