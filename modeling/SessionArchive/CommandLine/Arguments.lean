import SessionArchive.CommandLine.Usage

/-!
# Arguments

How a list of arguments is read. Each argument moves a `Reading` one step: it leads to a subcommand,
gives a switch or a value, or is an operand. `parse` runs all arguments and builds the command. A
switch that may be given everywhere counts where it was given last on the way down; if it was given
nowhere, its environment variable stands in for it.
-/

set_option autoImplicit false

namespace SessionArchive.CommandLine

/-- What was given at one place. Switches are listed in order, each with its value if it has one. -/
structure Level where
  place : Place
  given : List (Switch × Option String)
  operand : Option String
deriving Repr, DecidableEq

namespace Level

/-- Nothing given yet at a place. -/
def start (place : Place) : Level := ⟨place, [], none⟩

/-- How often a switch was given. -/
def count (level : Level) (switch : Switch) : Nat :=
  level.given.countP fun g => g.1 == switch

/-- Whether a switch was given. -/
def has (level : Level) (switch : Switch) : Bool := level.count switch != 0

/-- The value that was given with a switch. -/
def value? (level : Level) (switch : Switch) : Option String := (level.given.lookup switch).join

end Level

/-- How the next argument is understood. -/
inductive Expectation where
  | anything
  | value (switch : Switch)
  | operand
  | helpTopic
deriving Repr, DecidableEq

/-- What was read so far: the levels on the way down, the innermost first, and what comes next. -/
structure Reading where
  level : Level
  outer : List Level
  expected : Expectation
deriving Repr, DecidableEq

/-- Why the reading of arguments stops before a command is known. -/
inductive Stop where
  | error (fault : UsageError)
  | help (place : Place)
  | version
deriving Repr, DecidableEq

namespace Reading

/-- Nothing read. -/
def start : Reading := ⟨Level.start .top, [], .anything⟩

/-- All levels, the innermost first. -/
def levels (reading : Reading) : List Level := reading.level :: reading.outer

/-- Goes down to a subcommand. -/
def descend (reading : Reading) (place : Place) : Reading :=
  ⟨Level.start place, reading.levels, .anything⟩

/-- Takes a switch with its value, if it has one. -/
def give (reading : Reading) (switch : Switch) (value : Option String) : Except Stop Reading :=
  if reading.level.has switch && !switch.repeats then .error (.error (.repeatedSwitch switch))
  else
    .ok { reading with
      level := { reading.level with given := reading.level.given ++ [(switch, value)] }
      expected := .anything }

/-- Takes a switch that has a value, with that value. -/
def giveValue (reading : Reading) (switch : Switch) (value : String) : Except Stop Reading :=
  match switch.value? with
  | none => .error (.error (.unexpectedValue switch))
  | some kind =>
    if kind.accepts value then reading.give switch (some value)
    else .error (.error (.invalidValue value))

/-- Takes a switch that stands alone, or waits for its value. -/
def giveSwitch (reading : Reading) (switch : Switch) : Except Stop Reading :=
  match switch with
  | .help => .error (.help reading.level.place)
  | .version => .error .version
  | switch =>
    if switch.value?.isSome then .ok { reading with expected := .value switch }
    else reading.give switch none

/-- Takes what follows two dashes: a long name, perhaps with an equals sign and a value. -/
def long (reading : Reading) (text : List Char) : Except Stop Reading :=
  match Text.cutAt? '=' text with
  | some (name, value) =>
    match reading.level.place.findLong? (String.ofList name) with
    | some switch => reading.giveValue switch (String.ofList value)
    | none => .error (.error (.unknownSwitch (String.ofList ('-' :: '-' :: name))))
  | none =>
    match reading.level.place.findLong? (String.ofList text) with
    | some switch => reading.giveSwitch switch
    | none => .error (.error (.unknownSwitch (String.ofList ('-' :: '-' :: text))))

/-- The value behind a letter, without an equals sign in front. -/
def attached : List Char → String
  | '=' :: rest => String.ofList rest
  | cs => String.ofList cs

/-- Takes what follows one dash: letters of switches, the last perhaps with its value. -/
def letters (reading : Reading) : List Char → Except Stop Reading
  | [] => .ok reading
  | letter :: rest =>
    match reading.level.place.findShort? letter with
    | none => .error (.error (.unknownSwitch (String.ofList ['-', letter])))
    | some switch =>
      -- a letter with a value takes all that follows for it
      if switch.value?.isSome && !rest.isEmpty then reading.giveValue switch (attached rest)
      else
        match reading.giveSwitch switch with
        | .ok next => next.letters rest
        | .error stop => .error stop

/-- Takes an operand. -/
def operand (reading : Reading) (text : String) : Except Stop Reading :=
  match reading.level.place.operand?, reading.level.operand with
  | some kind, none =>
    if kind.accepts text then
      .ok { reading with level := { reading.level with operand := some text } }
    else .error (.error (.invalidValue text))
  | _, _ => .error (.error (.unexpectedOperand text))

/-- Takes an argument that may be anything. -/
def anything (reading : Reading) (text : String) : Except Stop Reading :=
  match reading.level.place.children.lookup text with
  | some place => .ok (reading.descend place)
  | none =>
    -- where there are subcommands, `help` is one of them
    if text = "help" ∧ reading.level.place.children ≠ [] then
      .ok { reading with expected := .helpTopic }
    else
      match text.toList with
      | ['-', '-'] => .ok { reading with expected := .operand }
      | '-' :: '-' :: rest => reading.long rest
      | '-' :: letter :: rest => reading.letters (letter :: rest)
      | _ => reading.operand text

/-- Whether an argument has the form of a switch, or ends the switches. -/
def looksLikeSwitch (text : String) : Bool :=
  match text.toList with
  | '-' :: _ :: _ => true
  | _ => false

/-- Takes the next argument. -/
def next (reading : Reading) (text : String) : Except Stop Reading :=
  match reading.expected with
  | .anything => reading.anything text
  | .operand => reading.operand text
  | .value switch =>
    if looksLikeSwitch text then .error (.error (.missingValue switch))
    else reading.giveValue switch text
  | .helpTopic =>
    match reading.level.place.children.lookup text with
    | some place => .ok { reading.descend place with expected := .helpTopic }
    | none => .error (.error (.unexpectedOperand text))

/-- Takes all arguments, and stops where what they lead to is not complete. -/
def all (arguments : List String) : Except Stop Reading := do
  let reading ← arguments.foldlM next start
  -- the arguments may end before what they announce
  match reading.expected with
  | .value switch => .error (.error (.missingValue switch))
  | .helpTopic => .error (.help reading.level.place)
  | _ =>
    if reading.level.place.children ≠ [] then .error (.error .missingCommand)
    else if reading.level.place.operand?.isSome && reading.level.operand.isNone then
      .error (.error .missingOperand)
    else .ok reading

/-! ## Options -/

/-- How often a switch was given at the innermost level where it was given at all. -/
def count (reading : Reading) (switch : Switch) : Nat :=
  ((reading.levels.map fun level => level.count switch).find? (· != 0)).getD 0

/-- Whether a switch was given at some level. -/
def has (reading : Reading) (switch : Switch) : Bool := reading.count switch != 0

/-- The value of a switch: the one given innermost, else the one of its variable. -/
def value? (reading : Reading) (environment : List (String × String)) (switch : Switch) :
    Option String :=
  match reading.levels.findSome? fun level => level.value? switch with
  | some value => some value
  | none => switch.environmentName?.bind fun name => environment.lookup name

/-- The variable of a switch with a value that cannot be read, unless the switch is given at every
level. -/
def brokenSetting? (reading : Reading) (environment : List (String × String)) :
    Option UsageError :=
  Switch.everywhere.findSome? fun switch =>
    match switch.value?, switch.environmentName?.bind fun name => environment.lookup name with
    | some kind, some value =>
      if kind.accepts value || reading.levels.all (·.has switch) then none
      else some (.invalidValue value)
    | _, _ => none

/-- The greatest count of a switch that is given repeatedly. -/
def greatestCount : Nat := 255

/-- The options that every command has. -/
def options (reading : Reading) (environment : List (String × String)) : Options :=
  { database := reading.value? environment .database
    scope :=
      { host := reading.value? environment .host
        org := reading.value? environment .org
        project := reading.value? environment .project
        branch := reading.value? environment .branch }
    json := reading.has .json
    verbosity := min greatestCount (reading.count .verbose)
    quiet := reading.has .quiet
    plain := reading.has .noColor }

end Reading

/-! ## Commands -/

namespace Level

/-- The number given with a switch. -/
def number? (level : Level) (switch : Switch) : Option Nat := (level.value? switch).bind count?

/-- The number of days given with a switch. -/
def daysOf? (level : Level) (switch : Switch) : Option Nat := (level.value? switch).bind days?

/-- The stream of history that a switch for commands chooses. -/
def kind (level : Level) (switch : Switch) : HistoryKind :=
  if level.has switch then .command else .prompt

/-- The limit on the hits of a search unless one is given. -/
def defaultHits : Nat := 20

/-- The limit on the entries of history unless one is given. -/
def defaultEntries : Nat := 50

/-- The command of a level, if what was given there is complete. -/
def command? (level : Level) : Option Command :=
  let text := level.operand
  match level.place with
  | .init => some .init
  | .version => some .version
  | .sessionList => some (.session (.list (level.has .all) (level.number? .limit)))
  | .sessionShow => text.map fun id => .session (.transcript id (level.number? .messages))
  | .sessionDelete => text.map fun id => .session (.delete id)
  | .sessionSearch => text.map fun pattern =>
      .session (.search pattern ((level.number? .limit).getD defaultHits))
  | .sessionCleanup =>
    some (.session (.cleanup (level.daysOf? .maxAgeDays) (level.number? .maxSessions)))
  | .historyShow => some (.history
      (.list (level.kind .commands) ((level.number? .limit).getD defaultEntries)))
  | .historyAdd => text.map fun entry => .history (.add (level.kind .command) entry)
  | .historyClear => some (.history (.clear (level.kind .commands)))
  | .historyCleanup => some (.history (.cleanup (level.daysOf? .maxAgeDays)))
  | .repositoryList => some (.repository .list)
  | .repositoryBranches => (text.bind rowId?).map fun id => .repository (.branches id)
  | .repositoryDelete => (text.bind rowId?).map fun id => .repository (.delete id)
  | .repositoryDeleteBranch => (text.bind rowId?).map fun id => .repository (.deleteBranch id)
  | .databaseStats => some (.database .stats)
  | .databaseCompact => some (.database .compact)
  | .completions => (text.bind shell?).map .completions
  | _ => none

end Level

/-- The command that a list of arguments asks for, with its options. -/
def parse (environment : List (String × String)) (arguments : List String) :
    Except Stop Invocation := do
  let reading ← Reading.all arguments
  match reading.brokenSetting? environment, reading.level.command? with
  | some fault, _ => .error (.error fault)
  | none, some command => .ok ⟨reading.options environment, command⟩
  | none, none => .error (.error .missingCommand)

end SessionArchive.CommandLine
