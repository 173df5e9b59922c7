import SessionArchive.CommandLine.Usage

/-!
# Help

What may be given at a place, for people who ask and for the completions of shells.
-/

set_option autoImplicit false

namespace SessionArchive.CommandLine

/-- The name by which the program is called. -/
def programName : String := "tether"

/-- A switch as it is given. -/
def Switch.display (switch : Switch) : String :=
  match switch.short? with
  | some letter => s!"-{letter}, --{switch.long}"
  | none => s!"--{switch.long}"

/-- The subcommands and switches of a place. -/
def Place.help (place : Place) : String :=
  let section_ := fun (title : String) (names : List String) =>
    if names.isEmpty then "" else s!"\n{title}:\n" ++ String.join (names.map fun n => s!"  {n}\n")
  s!"Usage: {programName} [OPTIONS] [COMMAND]\n" ++
    section_ "Commands" (place.children.map Prod.fst) ++
    section_ "Options" (place.switches.map Switch.display)

/-- Every word that may follow the name of the program, without repetitions. -/
def completionWords : List String :=
  let places : List Place := [.top, .session, .history, .repository, .database]
  ((places.flatMap fun place => place.children.map Prod.fst) ++
    Switch.everywhere.map fun s => s!"--{s.long}").eraseDups

/-- A script that makes a shell complete the words of a command line. -/
def Shell.script (shell : Shell) : String :=
  let words := " ".intercalate completionWords
  match shell with
  | .bash => s!"complete -o default -W '{words}' {programName}\n"
  | .zsh => s!"compctl -k '({words})' {programName}\n"
  | .fish => s!"complete -c {programName} -f -a '{words}'\n"
  | .powerShell =>
    s!"Register-ArgumentCompleter -Native -CommandName {programName} -ScriptBlock " ++
      s!"\x7b -split '{words}' \x7d\n"
  | .elvish =>
    s!"set edit:completion:arg-completer[{programName}] = \x7b|@args| put {words} \x7d\n"

end SessionArchive.CommandLine
