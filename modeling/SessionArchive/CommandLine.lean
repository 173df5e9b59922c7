import SessionArchive.CommandLine.Arguments
import SessionArchive.CommandLine.Execution
import SessionArchive.CommandLine.Help
import SessionArchive.Disk

/-!
# The command line

`run` is the program as a function: from the arguments, the surroundings, the disk and the time to
what is printed, the exit status and the disk afterwards. The settings are read before the store is
opened, and nothing is printed on the standard output before all has succeeded, so a command that
fails leaves it empty.
-/

set_option autoImplicit false

namespace SessionArchive.CommandLine

/-- What a command prints on either output, and its exit status. -/
structure Reply where
  status : Nat
  out : String
  err : String
deriving Repr, DecidableEq

/-- The exit status of a command line that is not understood. -/
def usageStatus : Nat := 2

/-- The reply where no command is executed. -/
def Stop.reply : Stop → Reply
  | .error fault => ⟨usageStatus, "", s!"error: {fault.message}\n"⟩
  | .help place => ⟨0, place.help, ""⟩
  | .version => ⟨0, s!"{programName} {Answer.programVersion}\n", ""⟩

/-- What is printed about a failure: a line of JSON, a message for people, or nothing. -/
def failureText (options : Options) (failure : Failure) : String :=
  if options.json then failure.toJson.toCompact ++ "\n"
  else if options.quiet then ""
  else
    match failure.hint with
    | some hint => s!"Error: {failure.message}\n  Hint: {hint}\n"
    | none => s!"Error: {failure.message}\n"

/-- The reply to a command that was executed. -/
def replyOf (options : Options) (surroundings : Surroundings) (events : List Event)
    (result : Except Failure Answer) : Reply :=
  let log := (Log.ofOptions surroundings.environment options).text events
  match result with
  | .ok answer =>
    let style := Style.ofEnvironment surroundings.environment options.plain
    ⟨0, answer.printed style options.json, log⟩
  | .error failure => ⟨failure.exitStatus, "", log ++ failureText options failure⟩

/-- Opens the store, executes on it, and puts what it holds back on the disk. -/
def withStore (options : Options) (surroundings : Surroundings) (disk : Disk) (now : Int64)
    (execute : Store → Outcome) : Reply × Disk :=
  match surroundings.databasePath? options.database with
  | none =>
    (replyOf options surroundings []
      (.error (.configuration "Could not determine database location")), disk)
  | some path =>
    match disk.openStore path now with
    | (.error failure, disk) => (replyOf options surroundings [] (.error failure), disk)
    | (.ok store, disk) =>
      let outcome := execute store
      (replyOf options surroundings (.opened path :: outcome.events) outcome.result,
        disk.update outcome.store)

/-- As `withStore`, for commands that depend on the settings and the scope. -/
def withContext (options : Options) (surroundings : Surroundings) (disk : Disk) (now : Int64)
    (execute : Context → Store → Outcome) : Reply × Disk :=
  match disk.loadSettings surroundings with
  | .error failure => (replyOf options surroundings [] (.error failure), disk)
  | .ok settings =>
    let context : Context := ⟨settings, surroundings.detectScope options.scope, now⟩
    withStore options surroundings disk now (execute context)

/-- Executes a command. -/
def Invocation.run (invocation : Invocation) (surroundings : Surroundings) (disk : Disk)
    (now : Int64) : Reply × Disk :=
  let options := invocation.options
  match invocation.command with
  | .init => withStore options surroundings disk now executeInit
  | .version => (replyOf options surroundings [] (.ok .version), disk)
  | .session command => withContext options surroundings disk now fun context store =>
      command.execute context store
  | .history command => withContext options surroundings disk now fun context store =>
      command.execute context store
  | .repository command => withStore options surroundings disk now fun store =>
      command.execute store
  | .database command => withStore options surroundings disk now fun store =>
      command.execute store
  | .completions shell =>
    (⟨0, shell.script, (Log.ofOptions surroundings.environment options).text []⟩, disk)

/-- The program. -/
def run (arguments : List String) (surroundings : Surroundings) (disk : Disk) (now : Int64) :
    Reply × Disk :=
  match parse surroundings.environment arguments with
  | .error stop => (stop.reply, disk)
  | .ok invocation => invocation.run surroundings disk now

end SessionArchive.CommandLine
