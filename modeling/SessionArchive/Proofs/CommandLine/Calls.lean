import SessionArchive.Proofs.CommandLine.Reply
import SessionArchive.Proofs.Json.Record
import SessionArchive.Proofs.Store.Lifetime
import SessionArchive.Proofs.Text.Utf8

/-!
# Calls of the program

A `Call` is one run of the program. Calls share nothing but the disk: each reads the settings, opens
its database and puts it back. `Call.touched` says what one may do at a place of the disk. However
many calls there were, the databases on the disk are as the program leaves them, and a file with
settings holds the same text: `Disk.Orderly.afterCalls` and `Disk.HoldsText.afterCalls`.
-/

set_option autoImplicit false

namespace SessionArchive

open Store (Database)

/-! ## Disks in order -/

/-- A database as the program leaves it. -/
structure Store.Database.InOrder (db : Database) : Prop where
  sound : db.Sound
  current : db.Current

theorem Store.Database.inOrder_new (now : Int64) : (Database.new now).InOrder :=
  ⟨Database.sound_new now, Database.current_new now⟩

/-- An operation leaves a database in order. -/
theorem Store.Database.InOrder.run {db left : Database} (h : db.InOrder) {operation : Operation}
    {path : Option String} {now : Int64}
    (hrun : (operation.run now ⟨path, some db⟩).2 = ⟨path, some left⟩) : left.InOrder := by
  have hchanges := (Operation.turns_of_run h.sound.toIntact hrun).changes
  have hsame := operation.run_sameHandle now ⟨path, some db⟩
  rw [hrun] at hsame
  cases hsame with
  | held _ hlayout =>
    refine ⟨hchanges.sound h.sound, hlayout.missing.trans h.current.missing, ?_⟩
    rw [hlayout.versions]
    exact h.current.stamped

/-- Every run of operations leads to a database in order. -/
theorem Store.play_inOrder (path : Option String) (start : Int64)
    (run : List (Int64 × Operation)) :
    ∃ db, (Store.fresh path start).play run = ⟨path, some db⟩ ∧ db.InOrder := by
  refine Store.play_induction (motive := fun store => ∃ db, store = ⟨path, some db⟩ ∧ db.InOrder)
    (Store.fresh path start) ⟨_, rfl, Database.inOrder_new start⟩ ?_ run
  rintro store now operation ⟨db, rfl, h⟩
  obtain ⟨after, hrun, -⟩ := operation.run_changes h.sound.toIntact path now
  exact ⟨after, hrun, h.run hrun⟩

namespace Disk

variable {disk : Disk} {path text : String} {settings : Settings}

/-- Every database on a disk is in order. -/
def Orderly (disk : Disk) : Prop :=
  ∀ place db, disk.get? place = some (.database db) → db.InOrder

/-- Where every database is what some run of operations led to, all are in order. -/
theorem orderly_of_play
    (h : ∀ place db, disk.get? place = some (.database db) → ∃ path start run,
      (Store.fresh path start).play run = ⟨path, some db⟩) : disk.Orderly := by
  intro place db hget
  obtain ⟨path, start, run, hplay⟩ := h place db hget
  obtain ⟨left, hleft, horder⟩ := Store.play_inOrder path start run
  obtain rfl := Store.eq_of_left hplay hleft
  exact horder

/-- The file at a path holds a text. -/
def HoldsText (disk : Disk) (path text : String) : Prop :=
  ∃ bytes, disk.get? (DiskPath.ofText path) = some (.file bytes) ∧
    Text.Utf8.decode? bytes = .ok text

theorem HoldsText.loadSettings (h : disk.HoldsText path text) {surroundings : Surroundings}
    (hpath : surroundings.settingsPath? = some path)
    (hdecode : Settings.decode text = .ok settings) :
    disk.loadSettings surroundings = .ok settings := by
  obtain ⟨bytes, hget, hbytes⟩ := h
  simp only [Disk.loadSettings, hpath, hget, textOf, hbytes, mapError_ok, settingsOfText, hdecode]

/-- A database that is opened is in order if the one that is there is. -/
theorem databaseOf_inOrder {now : Int64} {entry : Option DiskEntry} {db : Database}
    (hentry : ∀ stored, entry = some (.database stored) → stored.InOrder)
    (h : databaseOf path now entry = .ok db) : db.InOrder := by
  rcases entry with _ | _ | bytes | stored
  · cases h
    exact Database.inOrder_new now
  · cases h
  · simp only [databaseOf] at h
    split at h
    · cases h
      exact Database.inOrder_new now
    · cases h
  · have hstored := hentry stored rfl
    rw [databaseOf, hstored.current.applySchema_eq] at h
    cases h
    exact hstored

end Disk

/-- Settings take two characters at least. -/
theorem Settings.length_of_decode {text : String} {settings : Settings}
    (h : Settings.decode text = .ok settings) : 1 < text.toList.length := by
  by_contra hshort
  obtain ⟨fault, hfault⟩ :
      ∃ fault, Settings.read Json.greatestDepth text.toList = .error fault :=
    Json.readRecord_error_of_length_le (Nat.le_of_not_lt hshort)
  rw [Settings.decode, Json.read, hfault] at h
  cases h

namespace CommandLine

/-! ## What a call does to a place of the disk -/

namespace Invocation.Touched

variable {now : Int64} {asks : Operation → Prop} {before after : Option DiskEntry}

theorem imp {other : Operation → Prop} (h : Touched now asks before after)
    (himp : ∀ operation, asks operation → other operation) : Touched now other before after := by
  cases h with
  | grown hgrown => exact .grown hgrown
  | served hasks hopen hrun => exact .served (himp _ hasks) hopen hrun

/-- What is left at a place where all was in order is in order. -/
theorem inOrder (h : Touched now asks before after)
    (hbefore : ∀ db, before = some (.database db) → db.InOrder) :
    ∀ db, after = some (.database db) → db.InOrder := by
  intro db hdb
  cases h with
  | grown hgrown =>
    have hsame := hgrown.eq_of_ne (by rw [hdb]; nofun)
    exact hbefore db (hsame ▸ hdb)
  | @served path opened left operation _ hopen hrun =>
    cases hdb
    exact (Disk.databaseOf_inOrder hbefore hopen).run hrun

/-- A file that is too long for an empty database stays. -/
theorem of_file {bytes : List UInt8} (h : Touched now asks (some (.file bytes)) after)
    (hlength : 1 < bytes.length) : after = some (.file bytes) := by
  cases h with
  | grown hgrown => exact hgrown.of_some rfl
  | served _ hopen _ =>
    rw [Disk.databaseOf, if_neg (Nat.not_le_of_lt hlength)] at hopen
    cases hopen

/-- A database stays one, and as it is unless an operation was performed on it. -/
theorem of_database {db : Database} (h : Touched now asks (some (.database db)) after)
    (hcurrent : db.Current) :
    ∃ left, after = some (.database left) ∧ (left = db ∨ ∃ operation path, asks operation ∧
      (operation.run now ⟨path, some db⟩).2 = ⟨path, some left⟩) := by
  cases h with
  | grown hgrown => exact ⟨db, hgrown.of_some rfl, .inl rfl⟩
  | @served path opened left operation hasks hopen hrun =>
    rw [Disk.databaseOf, hcurrent.applySchema_eq] at hopen
    cases hopen
    exact ⟨left, rfl, .inr ⟨operation, some path, hasks, hrun⟩⟩

end Invocation.Touched

/-! ## Calls -/

/-- One run of the program: its arguments, what it finds around it, and the time. -/
structure Call where
  arguments : List String
  surroundings : Surroundings
  now : Int64

namespace Call

variable (call : Call)

/-- The reply to a call, and the disk afterwards. -/
def run (disk : Disk) : Reply × Disk :=
  CommandLine.run call.arguments call.surroundings disk call.now

/-- The command that the arguments of a call are understood as, and its options. -/
def Means (options : Options) (command : Command) : Prop :=
  parse call.surroundings.environment call.arguments = .ok ⟨options, command⟩

/-- A call asks for an operation on the store that it opens. -/
def AsksFor (disk : Disk) (operation : Operation) : Prop :=
  ∃ options command execute, call.Means options command ∧
    Invocation.Asks ⟨options, command⟩ call.surroundings disk call.now execute operation

variable {call} {disk : Disk}

/-- The arguments of a call are understood in one way. -/
theorem Means.eq {options other : Options} {command another : Command}
    (h : call.Means options command) (h' : call.Means other another) :
    other = options ∧ another = command := by
  rw [Means] at h h'
  rw [h] at h'
  cases h'
  exact ⟨rfl, rfl⟩

theorem run_eq {options : Options} {command : Command} (hmeans : call.Means options command) :
    call.run disk = Invocation.run ⟨options, command⟩ call.surroundings disk call.now :=
  run_parsed hmeans disk call.now

theorem touched (call : Call) (disk : Disk) (place : DiskPath) :
    Invocation.Touched call.now (call.AsksFor disk) (disk.get? place)
      ((call.run disk).2.get? place) := by
  cases hparse : parse call.surroundings.environment call.arguments with
  | error stop =>
    -- a call that is not understood gets its answer before the disk is looked at
    have hrun : (call.run disk).2 = disk := by rw [run, CommandLine.run, hparse]
    rw [hrun]
    exact .grown (.same _)
  | ok invocation =>
    rw [run_eq hparse]
    by_cases hexecuted : ∀ shell, invocation.command ≠ .completions shell
    · obtain ⟨events, result, after, hends, hreply⟩ :=
        Invocation.run_ends hexecuted call.surroundings disk call.now
      rw [hreply invocation.options rfl rfl]
      refine (hends.touched place).imp ?_
      rintro operation ⟨execute, hasks⟩
      exact ⟨_, _, execute, hparse, hasks⟩
    · -- completions are the one command that is answered without a look at the disk
      obtain ⟨shell, hshell⟩ := not_forall.mp hexecuted
      rw [Invocation.run, not_not.mp hshell]
      exact .grown (.same _)

end Call

/-- The disk after calls, one after another. -/
def afterCalls (disk : Disk) : List Call → Disk
  | [] => disk
  | call :: rest => afterCalls (call.run disk).2 rest

end CommandLine

namespace Disk

open CommandLine (Call afterCalls)

variable {disk : Disk} {path text : String} {settings : Settings}

theorem Orderly.run (h : disk.Orderly) (call : Call) : (call.run disk).2.Orderly :=
  fun place => (call.touched disk place).inOrder (h place)

theorem HoldsText.run (h : disk.HoldsText path text) (hdecode : Settings.decode text = .ok settings)
    (call : Call) : (call.run disk).2.HoldsText path text := by
  obtain ⟨bytes, hget, hbytes⟩ := h
  have htouched := call.touched disk (DiskPath.ofText path)
  have hlength := (Settings.length_of_decode hdecode).trans_le (Text.Utf8.length_decode? hbytes)
  rw [hget] at htouched
  exact ⟨bytes, htouched.of_file hlength, hbytes⟩

theorem Orderly.afterCalls (h : disk.Orderly) (calls : List Call) :
    (afterCalls disk calls).Orderly := by
  induction calls generalizing disk with
  | nil => exact h
  | cons call rest ih => exact ih (h.run call)

theorem HoldsText.afterCalls (h : disk.HoldsText path text)
    (hdecode : Settings.decode text = .ok settings) (calls : List Call) :
    (afterCalls disk calls).HoldsText path text := by
  induction calls generalizing disk with
  | nil => exact h
  | cons call rest ih => exact ih (h.run hdecode call)

end Disk

end SessionArchive
