import SessionArchive.CommandLine
import SessionArchive.Proofs.Disk
import SessionArchive.Proofs.Store.Layout

/-!
# How a command ends

A command that has to do with the store asks it for one operation: `Invocation.Asks`. It ends
before that, or when the database was opened and the operation performed: `Invocation.Ends` lists
the ways with the conditions of each, and `Invocation.run_ends` says that there are no others. What
a command does to the disk follows from it, place by place (`Invocation.Ends.touched`), and so does
that one that fails leaves every database as it was (`Invocation.Ends.keeps`).
-/

set_option autoImplicit false

namespace SessionArchive.CommandLine

open Store (Database)

/-! ## What a command asks of the store -/

/-- The operation of a command on sessions. -/
def SessionCommand.operation (context : Context) : SessionCommand → Operation
  | .list all limit =>
    let limit := limit.getD context.settings.sessions.listLimit.toNat
    .read (if all then .listAllSessions limit else .listSessions context.scope limit)
  | .transcript id _ => .read (.loadSession id)
  | .delete id => .deleteSession id
  | .search pattern limit => .read (.searchMessages pattern limit)
  | .cleanup maxAgeDays maxSessions =>
    .cleanupSessions (maxAgeDays.getD context.settings.sessions.effectiveMaxAgeDays)
      (maxSessions.getD context.settings.sessions.effectiveMaxSessions)

/-- The operation of a command on history. -/
def HistoryCommand.operation (context : Context) : HistoryCommand → Operation
  | .list kind limit => .read (.loadHistory kind context.scope limit)
  | .add kind text =>
    .appendHistory kind context.scope text context.settings.history.effectiveMaxEntries
  | .clear kind => .clearHistory kind context.scope
  | .cleanup maxAgeDays =>
    .cleanupHistory (maxAgeDays.getD context.settings.history.effectiveMaxAgeDays)

/-- The operation of a command on repositories and branches. -/
def RepositoryCommand.operation : RepositoryCommand → Operation
  | .list => .read .listRepositories
  | .branches id => .read (.listBranches id)
  | .delete id => .deleteRepository id
  | .deleteBranch id => .deleteBranch id

/-- The operation of a command on the database as a whole. -/
def DatabaseCommand.operation : DatabaseCommand → Operation
  | .stats => .read .stats
  | .compact => .read .compact

/-! ## What a command does to the store -/

/-- No event of a list is a warning or worse. -/
def Mild (events : List Event) : Prop :=
  ∀ event ∈ events, event.severity = .info ∨ event.severity = .debug

theorem mild_nil : Mild [] := List.forall_mem_nil _

theorem mild_single {event : Event} (h : event.severity = .info ∨ event.severity = .debug) :
    Mild [event] := by
  intro other hother
  rw [List.mem_singleton.mp hother]
  exact h

theorem mild_failureEvents (failure : Failure) : Mild (failureEvents failure) := by
  cases failure with
  | transaction name fault => exact mild_single (.inr rfl)
  | _ => exact mild_nil

theorem HistoryCommand.mild_createdEvents {α : Type} (store : Store) (write : Store.Write α) :
    Mild (createdEvents store write) := by
  rw [createdEvents]
  split
  · exact mild_nil
  · intro event hevent
    rcases List.mem_append.mp hevent with hevent | hevent
    · obtain ⟨repository, -, rfl⟩ := List.mem_map.mp hevent
      exact .inr rfl
    · obtain ⟨branch, -, rfl⟩ := List.mem_map.mp hevent
      exact .inr rfl

/-- What the execution of a command leaves is what an operation leaves: it succeeds or fails alike,
with the same failure and the same store, which it may close. -/
structure Outcome.Performs (outcome : Outcome) (now : Int64) (store : Store)
    (operation : Operation) : Prop where
  verdict : outcome.result.map (fun _ => ()) = (operation.run now store).1.map fun _ => ()
  left : outcome.store = (operation.run now store).2 ∨
    outcome.store = store.close ∧ (operation.run now store).2 = store
  mild : Mild outcome.events

section Performs

variable {now : Int64} {store after : Store} {operation : Operation}

theorem Outcome.Performs.of {α : Type} {result : Except Failure α} {answer : α → Answer}
    {events : α → List Event}
    (hresult : result.map (fun _ => ()) = (operation.run now store).1.map fun _ => ())
    (hleft : after = (operation.run now store).2) (hmild : ∀ value, Mild (events value)) :
    (Outcome.of result after answer events).Performs now store operation := by
  cases result with
  | ok value => exact ⟨hresult, .inl hleft, hmild value⟩
  | error failure => exact ⟨hresult, .inl hleft, mild_failureEvents failure⟩

/-- What fails is the operation, with the same failure. -/
theorem Outcome.Performs.run_error {outcome : Outcome} (h : outcome.Performs now store operation)
    {failure : Failure} (hfailure : outcome.result = .error failure) :
    (operation.run now store).1 = .error failure := by
  have hverdict := h.verdict
  rw [hfailure] at hverdict
  cases hrun : (operation.run now store).1 with
  | ok value =>
    rw [hrun] at hverdict
    cases hverdict
  | error fault =>
    rw [hrun] at hverdict
    cases hverdict
    rfl

theorem SessionCommand.performs (command : SessionCommand) (context : Context) (store : Store) :
    (command.execute context store).Performs context.now store (command.operation context) := by
  cases command with
  | list all limit =>
    cases all with
    | true => exact .of rfl rfl fun _ => mild_nil
    | false => exact .of rfl rfl fun _ => mild_nil
  | transcript id last => exact .of rfl rfl fun _ => mild_single (.inr rfl)
  | delete id => exact .of rfl rfl fun _ => mild_single (.inr rfl)
  | search pattern limit =>
    refine .of ?_ rfl fun _ => mild_single (.inr rfl)
    -- the messages that were looked at are counted, but the verdict is that of the search
    show _ = (store.searchMessages pattern limit).map fun _ => ()
    rw [Store.searchMessages, Store.searchMessagesBy, ← Store.searchScanned]
    cases store.searchScanned pattern limit with
    | ok found => rfl
    | error failure => rfl
  | cleanup maxAgeDays maxSessions =>
    refine .of rfl rfl ?_
    intro report
    rw [SessionCommand.cleanupEvents]
    split
    · exact mild_nil
    · exact mild_single (.inl rfl)

theorem HistoryCommand.performs (command : HistoryCommand) (context : Context) (store : Store) :
    (command.execute context store).Performs context.now store (command.operation context) := by
  cases command with
  | list kind limit => exact .of rfl rfl fun _ => mild_nil
  | add kind text =>
    -- the entry is added and its stream trimmed in one operation, and the event about a branch
    -- that had to be made comes on top
    let maxEntries := context.settings.history.effectiveMaxEntries
    let trimming := store.appendTrimming kind context.scope text maxEntries context.now
    have hadded : (Outcome.of trimming.1 trimming.2
        (fun _ => .addedHistory kind context.scope text)
        fun trimmed => [.appendedHistory kind context.scope trimmed]).Performs context.now store
          (.appendHistory kind context.scope text maxEntries) := by
      refine .of ?_ rfl fun _ => mild_single (.inr rfl)
      show _ = (trimming.1.map fun _ => ()).map fun _ => ()
      cases trimming.1 with
      | ok count => rfl
      | error failure => rfl
    refine ⟨hadded.verdict, hadded.left, ?_⟩
    intro event hevent
    rcases List.mem_append.mp hevent with hevent | hevent
    · exact mild_createdEvents _ _ event hevent
    · exact hadded.mild event hevent
  | clear kind =>
    refine .of rfl rfl ?_
    intro removed
    split
    · exact mild_single (.inr rfl)
    · exact mild_nil
  | cleanup maxAgeDays =>
    refine .of rfl rfl ?_
    intro removed
    split
    · exact mild_nil
    · exact mild_single (.inl rfl)

theorem RepositoryCommand.performs (command : RepositoryCommand) (now : Int64) (store : Store) :
    (command.execute store).Performs now store command.operation := by
  cases command with
  | list => exact .of rfl rfl fun _ => mild_nil
  | branches id => exact .of rfl rfl fun _ => mild_nil
  | delete id => exact .of rfl rfl fun _ => mild_single (.inl rfl)
  | deleteBranch id => exact .of rfl rfl fun _ => mild_single (.inl rfl)

theorem DatabaseCommand.performs (command : DatabaseCommand) (now : Int64) (store : Store) :
    (command.execute store).Performs now store command.operation := by
  cases command with
  | stats => exact .of rfl rfl fun _ => mild_nil
  | compact => exact .of rfl rfl fun _ => mild_single (.inl rfl)

theorem executeInit_performs (now : Int64) (store : Store) :
    (executeInit store).Performs now store (.read .schemaVersion) := by
  have hverdict : ((Operation.read .schemaVersion).run now store).1 = store.schemaVersion := rfl
  rw [executeInit]
  cases hschema : store.schemaVersion with
  | ok schema =>
    rw [hschema] at hverdict
    exact ⟨by rw [hverdict]; rfl, .inr ⟨rfl, rfl⟩, mild_single (.inl rfl)⟩
  | error failure =>
    rw [hschema] at hverdict
    exact ⟨by rw [hverdict]; rfl, .inl rfl, mild_failureEvents failure⟩

end Performs

/-! ## The ways in which a command ends -/

namespace Invocation

variable (invocation : Invocation) (surroundings : Surroundings) (disk : Disk) (now : Int64)

/-- What a command depends on besides the store, where the settings could be read. -/
def contextOf (settings : Settings) : Context :=
  ⟨settings, surroundings.detectScope invocation.options.scope, now⟩

/-- What a command has executed on the store, and the operation that it asks for with it. -/
inductive Asks : (Store → Outcome) → Operation → Prop
  | init (h : invocation.command = .init) : Asks executeInit (.read .schemaVersion)
  | session {command : SessionCommand} {settings : Settings}
      (h : invocation.command = .session command)
      (hsettings : disk.loadSettings surroundings = .ok settings) :
      Asks (fun store => command.execute (invocation.contextOf surroundings now settings) store)
        (command.operation (invocation.contextOf surroundings now settings))
  | history {command : HistoryCommand} {settings : Settings}
      (h : invocation.command = .history command)
      (hsettings : disk.loadSettings surroundings = .ok settings) :
      Asks (fun store => command.execute (invocation.contextOf surroundings now settings) store)
        (command.operation (invocation.contextOf surroundings now settings))
  | repository {command : RepositoryCommand} (h : invocation.command = .repository command) :
      Asks (fun store => command.execute store) command.operation
  | database {command : DatabaseCommand} (h : invocation.command = .database command) :
      Asks (fun store => command.execute store) command.operation

/-- How a command ends: with which events, with what answer or failure, and with what disk. -/
inductive Ends : List Event → Except Failure Answer → Disk → Prop
  | version (h : invocation.command = .version) : Ends [] (.ok .version) disk
  | unsettled {failure : Failure}
      (h : (∃ command, invocation.command = .session command) ∨
        ∃ command, invocation.command = .history command)
      (hsettings : disk.loadSettings surroundings = .error failure) :
      Ends [] (.error failure) disk
  | nowhere {execute : Store → Outcome} {operation : Operation}
      (h : invocation.Asks surroundings disk now execute operation)
      (hpath : surroundings.databasePath? invocation.options.database = none) :
      Ends [] (.error (.configuration "Could not determine database location")) disk
  | unopened {execute : Store → Outcome} {operation : Operation} {path : String}
      {failure : Failure} {opened : Disk}
      (h : invocation.Asks surroundings disk now execute operation)
      (hpath : surroundings.databasePath? invocation.options.database = some path)
      (hopen : disk.openStore path now = (.error failure, opened)) :
      Ends [] (.error failure) opened
  | executed {execute : Store → Outcome} {operation : Operation} {path : String} {store : Store}
      {opened : Disk}
      (h : invocation.Asks surroundings disk now execute operation)
      (hpath : surroundings.databasePath? invocation.options.database = some path)
      (hopen : disk.openStore path now = (.ok store, opened)) :
      Ends (.opened path :: (execute store).events) (execute store).result
        (opened.update (execute store).store)

variable {invocation surroundings disk now}

theorem Asks.performs {execute : Store → Outcome} {operation : Operation}
    (h : invocation.Asks surroundings disk now execute operation) (store : Store) :
    (execute store).Performs now store operation := by
  cases h with
  | init _ => exact executeInit_performs now store
  | session _ _ => exact SessionCommand.performs _ _ store
  | history _ _ => exact HistoryCommand.performs _ _ store
  | repository _ => exact RepositoryCommand.performs _ now store
  | database _ => exact DatabaseCommand.performs _ now store

/-- Only the printing depends on the other options than the place of the database. -/
theorem withStore_ends {execute : Store → Outcome} {operation : Operation}
    (h : invocation.Asks surroundings disk now execute operation) :
    ∃ events result after, invocation.Ends surroundings disk now events result after ∧
      ∀ options : Options, options.database = invocation.options.database →
        withStore options surroundings disk now execute =
          (replyOf options surroundings events result, after) := by
  cases hpath : surroundings.databasePath? invocation.options.database with
  | none =>
    refine ⟨_, _, _, .nowhere h hpath, ?_⟩
    intro options hdatabase
    rw [withStore, hdatabase, hpath]
  | some path =>
    rcases hopen : disk.openStore path now with ⟨_ | store, opened⟩
    · refine ⟨_, _, _, .unopened h hpath hopen, ?_⟩
      intro options hdatabase
      simp only [withStore, hdatabase, hpath, hopen]
    · refine ⟨_, _, _, .executed h hpath hopen, ?_⟩
      intro options hdatabase
      simp only [withStore, hdatabase, hpath, hopen]

/-- A command that is executed, as all but the one for completions are, ends in one of the ways.
The reply tells of it as the options that are about printing ask for. -/
theorem run_ends (hexecuted : ∀ shell, invocation.command ≠ .completions shell)
    (surroundings : Surroundings) (disk : Disk) (now : Int64) :
    ∃ events result after, invocation.Ends surroundings disk now events result after ∧
      ∀ options : Options, options.database = invocation.options.database →
        options.scope = invocation.options.scope →
        Invocation.run ⟨options, invocation.command⟩ surroundings disk now =
          (replyOf options surroundings events result, after) := by
  simp only [Invocation.run]
  cases hcommand : invocation.command with
  | init =>
    obtain ⟨events, result, after, hends, hreply⟩ := withStore_ends (.init hcommand)
    exact ⟨events, result, after, hends, fun options hdatabase _ => hreply options hdatabase⟩
  | version => exact ⟨_, _, _, .version hcommand, fun _ _ _ => rfl⟩
  | session command =>
    simp only [withContext]
    cases hsettings : disk.loadSettings surroundings with
    | error failure =>
      exact ⟨_, _, _, .unsettled (.inl ⟨command, hcommand⟩) hsettings, fun _ _ _ => rfl⟩
    | ok settings =>
      obtain ⟨events, result, after, hends, hreply⟩ :=
        withStore_ends (.session hcommand hsettings)
      -- the scope is part of the context, so the options have to agree on it as well
      refine ⟨events, result, after, hends, ?_⟩
      intro options hdatabase hscope
      rw [hscope]
      exact hreply options hdatabase
  | history command =>
    simp only [withContext]
    cases hsettings : disk.loadSettings surroundings with
    | error failure =>
      exact ⟨_, _, _, .unsettled (.inr ⟨command, hcommand⟩) hsettings, fun _ _ _ => rfl⟩
    | ok settings =>
      obtain ⟨events, result, after, hends, hreply⟩ :=
        withStore_ends (.history hcommand hsettings)
      refine ⟨events, result, after, hends, ?_⟩
      intro options hdatabase hscope
      rw [hscope]
      exact hreply options hdatabase
  | repository command =>
    obtain ⟨events, result, after, hends, hreply⟩ := withStore_ends (.repository hcommand)
    exact ⟨events, result, after, hends, fun options hdatabase _ => hreply options hdatabase⟩
  | database command =>
    obtain ⟨events, result, after, hends, hreply⟩ := withStore_ends (.database hcommand)
    exact ⟨events, result, after, hends, fun options hdatabase _ => hreply options hdatabase⟩
  | completions shell => exact absurd hcommand (hexecuted shell)

/-- What happens on the way to an end is no warning. -/
theorem Ends.mild {events : List Event} {result : Except Failure Answer} {after : Disk}
    (h : invocation.Ends surroundings disk now events result after) : Mild events := by
  cases h with
  | version _ => exact mild_nil
  | unsettled _ _ => exact mild_nil
  | nowhere _ _ => exact mild_nil
  | unopened _ _ _ => exact mild_nil
  | executed hasks _ _ => exact List.forall_mem_cons.mpr ⟨.inl rfl, (hasks.performs _).mild⟩

end Invocation

/-! ## What a command does to the disk -/

section Files

variable {disk opened : Disk} {path : String} {now : Int64} {store left : Store}
  {operation : Operation}

/-- A store that was opened in its file leaves there what an operation that was performed on it
leaves, and elsewhere no more than the directories that were made. -/
theorem exists_base_of_run (hnamed : ¬(path = "" ∨ path = ":memory:"))
    (hopen : disk.openStore path now = (.ok store, opened))
    (hleft : left = (operation.run now store).2 ∨
      left = store.close ∧ (operation.run now store).2 = store) :
    ∃ (base : Disk) (db content : Database), base.Houses path ∧
      (∀ place, Disk.Grown (disk.get? place) (base.get? place)) ∧
      Disk.databaseOf path now (disk.get? (DiskPath.ofText path)) = .ok db ∧
      store = ⟨some path, some db⟩ ∧
      (operation.run now store).2 = ⟨some path, some content⟩ ∧
      opened.update left = base.withDatabase path content := by
  obtain ⟨base, db, hhouses, hgrown, hcontent, rfl, rfl⟩ :=
    Disk.exists_base_of_openStore hnamed hopen
  have hsame := operation.run_sameHandle now ⟨some path, some db⟩
  generalize (operation.run now ⟨some path, some db⟩).2 = ran at hleft hsame ⊢
  cases hsame with
  | @held _ _ content _ =>
    refine ⟨base, db, content, hhouses, hgrown, hcontent, rfl, rfl, ?_⟩
    rcases hleft with rfl | ⟨rfl, hunchanged⟩
    · exact hhouses.update_withDatabase db content
    · cases hunchanged
      exact Disk.update_closed _ _

/-- A store that no file holds leaves nothing. -/
theorem update_run_unfiled (hunfiled : path = "" ∨ path = ":memory:")
    (hopen : disk.openStore path now = (.ok store, opened))
    (hleft : left = (operation.run now store).2 ∨
      left = store.close ∧ (operation.run now store).2 = store) : opened.update left = disk := by
  rw [Disk.openStore, if_pos hunfiled] at hopen
  cases hopen
  have hsame := operation.run_sameHandle now ⟨some path, some (Database.new now)⟩
  generalize (operation.run now ⟨some path, some (Database.new now)⟩).2 = ran at hleft hsame
  -- the handle has the path of no file, open or closed
  cases hsame with
  | held _ _ =>
    rcases hleft with rfl | ⟨rfl, -⟩
    · exact disk.update_unfiled hunfiled _
    · exact disk.update_closed _

/-- What a store that was opened leaves at a place when an operation was performed on it: no more
than the making of directories does, or the database that the operation left. -/
theorem get?_update_run (hopen : disk.openStore path now = (.ok store, opened))
    (hleft : left = (operation.run now store).2 ∨
      left = store.close ∧ (operation.run now store).2 = store) (place : DiskPath) :
    Disk.Grown (disk.get? place) ((opened.update left).get? place) ∨
      ∃ db content, Disk.databaseOf path now (disk.get? place) = .ok db ∧
        store = ⟨some path, some db⟩ ∧
        (operation.run now store).2 = ⟨some path, some content⟩ ∧
        (opened.update left).get? place = some (.database content) := by
  by_cases hunfiled : path = "" ∨ path = ":memory:"
  · rw [update_run_unfiled hunfiled hopen hleft]
    exact .inl (.same _)
  · obtain ⟨base, db, content, hhouses, hgrown, hcontent, hstore, hrun, hupdate⟩ :=
      exists_base_of_run hunfiled hopen hleft
    rw [hupdate]
    by_cases heq : place = DiskPath.ofText path
    · subst heq
      exact .inr ⟨db, content, hcontent, hstore, hrun, hhouses.get?_withDatabase content⟩
    · rw [Disk.withDatabase, Disk.get?_insert_of_ne base _ heq]
      exact .inl (hgrown place)

end Files

namespace Invocation

variable {invocation : Invocation} {surroundings : Surroundings} {disk after : Disk} {now : Int64}
  {events : List Event}

/-- What a command does at a place of the disk: no more than the making of directories does, or the
database that is there, a new one where there is none, is opened and an operation that the command
asks for is performed on it. -/
inductive Touched (now : Int64) (asks : Operation → Prop) :
    Option DiskEntry → Option DiskEntry → Prop
  | grown {before after : Option DiskEntry} (h : Disk.Grown before after) :
      Touched now asks before after
  | served {before : Option DiskEntry} {path : String} {db left : Database}
      {operation : Operation} (hasks : asks operation)
      (hopen : Disk.databaseOf path now before = .ok db)
      (hrun : (operation.run now ⟨some path, some db⟩).2 = ⟨some path, some left⟩) :
      Touched now asks before (some (.database left))

theorem Ends.touched {result : Except Failure Answer}
    (h : invocation.Ends surroundings disk now events result after) (place : DiskPath) :
    Touched now
      (fun operation => ∃ execute, invocation.Asks surroundings disk now execute operation)
      (disk.get? place) (after.get? place) := by
  cases h with
  | version _ => exact .grown (.same _)
  | unsettled _ _ => exact .grown (.same _)
  | nowhere _ _ => exact .grown (.same _)
  | unopened _ _ hopen => exact .grown (Disk.grown_of_openStore_error hopen place)
  | executed hasks _ hopen =>
    rcases get?_update_run hopen (hasks.performs _).left place with
      hgrown | ⟨db, content, hcontent, rfl, hrun, hget⟩
    · exact .grown hgrown
    · rw [hget]
      exact .served ⟨_, hasks⟩ hcontent hrun

/-- A command that fails leaves the databases that are there as they are. -/
theorem Ends.keeps {failure : Failure}
    (h : invocation.Ends surroundings disk now events (.error failure) after) {place : DiskPath}
    {db : Database} (hget : disk.get? place = some (.database db)) (hcurrent : db.Current) :
    after.get? place = some (.database db) := by
  generalize hresult : (Except.error failure : Except Failure Answer) = result at h
  cases h with
  | version _ => cases hresult
  | unsettled _ _ => exact hget
  | nowhere _ _ => exact hget
  | unopened _ _ hopen => exact (Disk.grown_of_openStore_error hopen place).of_some hget
  | @executed _ operation path store opened hasks _ hopen =>
    have hperforms := hasks.performs store
    -- the operation failed, and left the store as it was opened
    have hunchanged : (operation.run now store).2 = store :=
      Operation.run_of_error (hperforms.run_error hresult.symm)
    rcases get?_update_run hopen hperforms.left place with
      hgrown | ⟨opened, content, hcontent, hstore, hrun, hafter⟩
    · exact hgrown.of_some hget
    · rw [hunchanged, hstore] at hrun
      rw [hget, Disk.databaseOf, hcurrent.applySchema_eq] at hcontent
      cases hrun
      cases hcontent
      exact hafter

end Invocation

end SessionArchive.CommandLine
