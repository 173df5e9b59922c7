import SessionArchive.Proofs.CommandLine.Calls
import SessionArchive.Proofs.Store.Removal

/-!
# What is kept from call to call

Whatever calls there were before, the next one keeps to the settings: `retention_afterCalls`. With a
policy switched off nothing goes but what a command names, for no cleanup has a limit then and a
limit of zero is none. With a limit on history the stream that a text was added to keeps to it.
-/

set_option autoImplicit false

namespace SessionArchive

open Store (Database SessionRow)

namespace CommandLine

/-! ## Which command asks for an operation -/

/-- The command that an operation was asked for by, and what the operation takes from the settings
and the scope. -/
def Invocation.Asked (invocation : Invocation) (surroundings : Surroundings) (disk : Disk) :
    Operation → Prop
  | .read _ => True
  | .deleteRepository id => invocation.command = .repository (.delete id)
  | .deleteBranch id => invocation.command = .repository (.deleteBranch id)
  | .deleteSession id => invocation.command = .session (.delete id)
  | .cleanupSessions days count =>
    ∃ settings maxAgeDays maxSessions, disk.loadSettings surroundings = .ok settings ∧
      invocation.command = .session (.cleanup maxAgeDays maxSessions) ∧
      days = maxAgeDays.getD settings.sessions.effectiveMaxAgeDays ∧
      count = maxSessions.getD settings.sessions.effectiveMaxSessions
  | .appendHistory kind scope text maxEntries =>
    ∃ settings, disk.loadSettings surroundings = .ok settings ∧
      invocation.command = .history (.add kind text) ∧
      scope = surroundings.detectScope invocation.options.scope ∧
      maxEntries = settings.history.effectiveMaxEntries
  | .clearHistory kind scope =>
    invocation.command = .history (.clear kind) ∧
      scope = surroundings.detectScope invocation.options.scope
  | .cleanupHistory days =>
    ∃ settings maxAgeDays, disk.loadSettings surroundings = .ok settings ∧
      invocation.command = .history (.cleanup maxAgeDays) ∧
      days = maxAgeDays.getD settings.history.effectiveMaxAgeDays
  | _ => False

theorem Invocation.Asks.asked {invocation : Invocation} {surroundings : Surroundings} {disk : Disk}
    {now : Int64} {execute : Store → Outcome} {operation : Operation}
    (h : invocation.Asks surroundings disk now execute operation) :
    invocation.Asked surroundings disk operation := by
  cases h with
  | init _ => trivial
  | @session command settings hcommand hsettings =>
    cases command with
    | list all limit => trivial
    | transcript id last => trivial
    | delete id => exact hcommand
    | search pattern limit => trivial
    | cleanup maxAgeDays maxSessions =>
      exact ⟨settings, maxAgeDays, maxSessions, hsettings, hcommand, rfl, rfl⟩
  | @history command settings hcommand hsettings =>
    cases command with
    | list kind limit => trivial
    | add kind text => exact ⟨settings, hsettings, hcommand, rfl, rfl⟩
    | clear kind => exact ⟨hcommand, rfl⟩
    | cleanup maxAgeDays => exact ⟨settings, maxAgeDays, hsettings, hcommand, rfl⟩
  | @repository command hcommand =>
    cases command with
    | list => trivial
    | branches id => trivial
    | delete id => exact hcommand
    | deleteBranch id => exact hcommand
  | @database command hcommand =>
    cases command with
    | stats => trivial
    | compact => trivial

/-- A command deletes a branch of a database, by its id or with its repository. -/
inductive Command.DeletesBranch (db : Database) (id : RowId) : Command → Prop
  | itself : DeletesBranch db id (.repository (.deleteBranch id))
  | repository {b : Branch} (hb : b ∈ db.branches.rows) (hid : b.id = id) :
      DeletesBranch db id (.repository (.delete b.repositoryId))

theorem Invocation.Asked.deletesBranch {invocation : Invocation} {surroundings : Surroundings}
    {disk : Disk} {operation : Operation} (h : invocation.Asked surroundings disk operation)
    {db : Database} {id : RowId} (hremoves : operation.RemovesBranch db id) :
    invocation.command.DeletesBranch db id := by
  cases hremoves with
  | itself =>
    have hcommand : invocation.command = .repository (.deleteBranch id) := h
    rw [hcommand]
    exact .itself
  | @repository b hb hid =>
    have hcommand : invocation.command = .repository (.delete b.repositoryId) := h
    rw [hcommand]
    exact .repository hb hid

/-! ## What a call keeps -/

namespace Call

variable (call : Call)

/-- A call deletes a session by its id, or the branch or repository that it is in. -/
def DeletesSession (db : Database) (s : SessionRow) : Prop :=
  ∃ options command, call.Means options command ∧
    (command = .session (.delete s.id) ∨ command.DeletesBranch db s.branchId)

/-- A call clears the stream of an entry, or deletes the branch or repository that it is in. -/
def DeletesEntry (db : Database) (kind : HistoryKind) (entry : HistoryEntry) : Prop :=
  ∃ options command, call.Means options command ∧
    ((command = .history (.clear kind) ∧
        ∃ b, db.findScope? (call.surroundings.detectScope options.scope) = some b ∧
          b.id = entry.branchId) ∨
      command.DeletesBranch db entry.branchId)

/-- A call is a cleanup of sessions that is given a limit. -/
def LimitsSessions : Prop :=
  ∃ options maxAgeDays maxSessions,
    call.Means options (.session (.cleanup maxAgeDays maxSessions)) ∧
      ¬(maxAgeDays = none ∧ maxSessions = none)

/-- A call is a cleanup of history that is given a limit. -/
def LimitsHistory : Prop :=
  ∃ options maxAgeDays, call.Means options (.history (.cleanup (some maxAgeDays)))

variable {call} {disk : Disk} {settings : Settings} {place : DiskPath} {db : Database}

/-- A database on the disk stays as it is, or the command of the call had an operation performed on
it. -/
theorem exists_left (call : Call) (h : disk.Orderly)
    (hget : disk.get? place = some (.database db)) :
    ∃ left, (call.run disk).2.get? place = some (.database left) ∧ (left = db ∨
      ∃ options command operation path, call.Means options command ∧
        Invocation.Asked ⟨options, command⟩ call.surroundings disk operation ∧
        (operation.run call.now ⟨path, some db⟩).2 = ⟨path, some left⟩) := by
  have htouched := call.touched disk place
  rw [hget] at htouched
  obtain ⟨left, hleft, hsame⟩ := htouched.of_database (h place db hget).current
  refine ⟨left, hleft, ?_⟩
  rcases hsame with hsame | ⟨operation, path, ⟨options, command, _, hmeans, hasks⟩, hrun⟩
  · exact .inl hsame
  · exact .inr ⟨options, command, operation, path, hmeans, hasks.asked, hrun⟩

/-- Without a limit in the settings or in the call, sessions go only by name. -/
theorem keeps_sessions (h : disk.Orderly)
    (hsettings : disk.loadSettings call.surroundings = .ok settings)
    (hdisabled : settings.sessions.enabled = false) (hlimits : ¬call.LimitsSessions)
    (hget : disk.get? place = some (.database db)) :
    ∃ left, (call.run disk).2.get? place = some (.database left) ∧
      ∀ s ∈ db.sessions.rows, call.DeletesSession db s ∨ left.Has db s := by
  have hsound := (h place db hget).sound
  obtain ⟨left, hleft, hsame⟩ := call.exists_left h hget
  refine ⟨left, hleft, ?_⟩
  intro s hs
  rcases hsame with rfl | ⟨options, command, operation, path, hmeans, hasked, hrun⟩
  · exact .inr ⟨hs, rfl⟩
  rcases operation.removesSession_or_has hsound hrun hs with hremoves | hhas
  · cases hremoves with
    | itself => exact .inl ⟨options, command, hmeans, .inl hasked⟩
    | branch hbranch =>
      exact .inl ⟨options, command, hmeans, .inr (hasked.deletesBranch hbranch)⟩
    | overwritten hid => exact hasked.elim
    | limited hlimited =>
      obtain ⟨loaded, maxAgeDays, maxSessions, hloaded, hcommand, rfl, rfl⟩ := hasked
      rw [hsettings] at hloaded
      cases hloaded
      obtain rfl : command = .session (.cleanup maxAgeDays maxSessions) := hcommand
      -- no limit is given, and the policy has none
      obtain ⟨rfl, rfl⟩ : maxAgeDays = none ∧ maxSessions = none :=
        not_not.mp fun hgiven => hlimits ⟨options, maxAgeDays, maxSessions, hmeans, hgiven⟩
      refine absurd ⟨?_, ?_⟩ hlimited
      · simp [SessionSettings.effectiveMaxAgeDays, hdisabled]
      · simp [SessionSettings.effectiveMaxSessions, hdisabled]
  · exact .inr hhas

/-- Without a limit in the settings or in the call, entries go only where their stream is cleared or
their branch is deleted. -/
theorem keeps_entries (h : disk.Orderly)
    (hsettings : disk.loadSettings call.surroundings = .ok settings)
    (hdisabled : settings.history.enabled = false) (hlimits : ¬call.LimitsHistory)
    (hget : disk.get? place = some (.database db)) :
    ∃ left, (call.run disk).2.get? place = some (.database left) ∧
      ∀ kind, ∀ entry ∈ (db.history kind).rows,
        call.DeletesEntry db kind entry ∨ entry ∈ (left.history kind).rows := by
  have hsound := (h place db hget).sound
  obtain ⟨left, hleft, hsame⟩ := call.exists_left h hget
  refine ⟨left, hleft, ?_⟩
  intro kind entry hentry
  rcases hsame with rfl | ⟨options, command, operation, path, hmeans, hasked, hrun⟩
  · exact .inr hentry
  -- an entry goes in one of four ways, the last two of which need a limit, and there is none
  rcases operation.removesEntry_or_mem hsound hrun hentry with hremoves | hmem
  · cases hremoves with
    | branch hbranch =>
      exact .inl ⟨options, command, hmeans, .inr (hasked.deletesBranch hbranch)⟩
    | @cleared scope b hscope hid =>
      obtain ⟨hcommand, rfl⟩ := hasked
      exact .inl ⟨options, command, hmeans, .inl ⟨hcommand, b, hscope, hid⟩⟩
    | trimmed hlimited =>
      obtain ⟨loaded, hloaded, -, -, rfl⟩ := hasked
      rw [hsettings] at hloaded
      cases hloaded
      exact absurd (by simp [HistorySettings.effectiveMaxEntries, hdisabled]) hlimited
    | expired hlimited =>
      obtain ⟨loaded, maxAgeDays, hloaded, hcommand, rfl⟩ := hasked
      rw [hsettings] at hloaded
      cases hloaded
      obtain rfl : command = .history (.cleanup maxAgeDays) := hcommand
      cases maxAgeDays with
      | some days => exact absurd ⟨options, days, hmeans⟩ hlimits
      | none => exact absurd (by simp [HistorySettings.effectiveMaxAgeDays, hdisabled]) hlimited
  · exact .inr hmem

/-- A history that is loaded whole has as many entries as the scope has in the stream. -/
theorem exists_loadHistory (h : db.Sound) (path : Option String) (kind : HistoryKind)
    (scope : Scope) :
    ∃ entries, Store.loadHistory ⟨path, some db⟩ kind scope 0 = .ok entries ∧
      entries.length = (db.entriesOf kind scope).length := by
  refine ⟨_, h.toIntact.loadHistory_eq kind scope 0, ?_⟩
  rw [List.length_reverse, Database.limited, if_pos rfl, Store.latestFirst, List.length_mergeSort]

/-- A call that adds to the history asks for nothing else, with the limit of the settings. -/
theorem asks_add {options : Options} {kind : HistoryKind} {text : String}
    {surroundings : Surroundings} {now : Int64} {execute : Store → Outcome} {operation : Operation}
    (h : Invocation.Asks ⟨options, .history (.add kind text)⟩ surroundings disk now execute
      operation) (hsettings : disk.loadSettings surroundings = .ok settings) :
    operation = .appendHistory kind (surroundings.detectScope options.scope) text
      settings.history.effectiveMaxEntries := by
  cases h with
  | init hcommand => cases hcommand
  | session hcommand _ => cases hcommand
  | history hcommand hloaded =>
    cases hcommand
    rw [hsettings] at hloaded
    cases hloaded
    rfl
  | repository hcommand => cases hcommand
  | database hcommand => cases hcommand

/-- A call that adds to the history and succeeds leaves no more entries in the stream than the
settings allow: as many are found there by whoever opens the database next. -/
theorem caps_history (h : disk.Orderly)
    (hsettings : disk.loadSettings call.surroundings = .ok settings)
    (henabled : settings.history.enabled = true) (hlimit : settings.history.maxEntries ≠ 0)
    {options : Options} {kind : HistoryKind} {text : String}
    (hmeans : call.Means options (.history (.add kind text)))
    (hstatus : (call.run disk).1.status = 0) :
    ∃ path, call.surroundings.databasePath? options.database = some path ∧
      ∀ later, ∃ store opened entries,
        (call.run disk).2.openStore path later = (.ok store, opened) ∧
        store.loadHistory kind (call.surroundings.detectScope options.scope) 0 = .ok entries ∧
        entries.length ≤ settings.history.maxEntries.toNat := by
  have horderly := h.run call
  rw [run_eq hmeans] at hstatus horderly ⊢
  have hexecuted : ∀ shell,
      (Invocation.mk options (.history (.add kind text))).command ≠ .completions shell :=
    fun shell => nofun
  obtain ⟨events, result, after, hends, hreply⟩ :=
    Invocation.run_ends hexecuted call.surroundings disk call.now
  rw [hreply options rfl rfl] at hstatus horderly ⊢
  cases result with
  | error failure => exact absurd hstatus (Nat.ne_of_gt (exitStatus_bounds failure).1)
  | ok answer =>
    generalize hresult : (Except.ok answer : Except Failure Answer) = result at hends
    cases hends with
    | version hcommand => cases hcommand
    | unsettled _ _ => cases hresult
    | nowhere _ _ => cases hresult
    | unopened _ _ _ => cases hresult
    | @executed _ operation path store opened hasks hpath hopen =>
      have hleft := (hasks.performs store).left
      refine ⟨path, hpath, ?_⟩
      intro later
      obtain rfl := asks_add hasks hsettings
      by_cases hunfiled : path = "" ∨ path = ":memory:"
      · -- a database that no file holds is new each time
        obtain ⟨entries, hload, hlength⟩ := exists_loadHistory (Database.sound_new later)
          (some path) kind (call.surroundings.detectScope options.scope)
        refine ⟨_, _, entries, if_pos hunfiled, hload, ?_⟩
        rw [hlength]
        exact Nat.zero_le _
      · obtain ⟨base, db, content, hhouses, -, hdb, rfl, hrun, hupdate⟩ :=
          exists_base_of_run hunfiled hopen hleft
        have hsound := (Disk.databaseOf_inOrder (h _) hdb).sound
        rw [hupdate] at horderly ⊢
        have hcontent := horderly _ content (hhouses.get?_withDatabase content)
        obtain rfl := Store.eq_of_left hrun (congrArg Prod.snd
          (Store.appendHistory_intact hsound.toIntact (some path) kind _ text _ call.now))
        obtain ⟨entries, hload, hlength⟩ := exists_loadHistory hcontent.sound (some path) kind
          (call.surroundings.detectScope options.scope)
        refine ⟨_, _, entries, hhouses.openStore_withDatabase hcontent.current later, hload, ?_⟩
        rw [hlength]
        have hmax : settings.history.effectiveMaxEntries = settings.history.maxEntries.toNat := by
          rw [HistorySettings.effectiveMaxEntries, if_pos henabled]
        have hne : settings.history.maxEntries.toNat ≠ 0 := fun hzero =>
          hlimit (UInt64.toNat_inj.mp hzero)
        rw [hmax]
        exact hsound.length_entriesOf_appendHistory kind _ text hne call.now

end Call

/-- What a call keeps, whatever calls there were before it, where the file of its settings holds a
text that can be read and all databases on the disk are as the program leaves them. With the policy
for sessions switched off, and no limit given to a cleanup, a session stays with its messages unless
the call deletes it, its branch or its repository. With the policy for history switched off, and no
limit given to a cleanup, an entry stays unless the call clears its stream or deletes its branch or
repository. With the policy for history switched on and a limit on the entries, a text that is added
leaves no more entries in its stream than the limit. -/
theorem retention_afterCalls {disk : Disk} {config text : String} {settings : Settings}
    (horderly : disk.Orderly) (hconfig : disk.HoldsText config text)
    (hdecode : Settings.decode text = .ok settings) (calls : List Call) (call : Call)
    (hpath : call.surroundings.settingsPath? = some config) :
    let held := afterCalls disk calls
    let left := (call.run held).2
    (settings.sessions.enabled = false → ¬call.LimitsSessions →
      ∀ place db, held.get? place = some (.database db) →
        ∃ after, left.get? place = some (.database after) ∧
          ∀ s ∈ db.sessions.rows, call.DeletesSession db s ∨ after.Has db s) ∧
    (settings.history.enabled = false → ¬call.LimitsHistory →
      ∀ place db, held.get? place = some (.database db) →
        ∃ after, left.get? place = some (.database after) ∧
          ∀ kind, ∀ entry ∈ (db.history kind).rows,
            call.DeletesEntry db kind entry ∨ entry ∈ (after.history kind).rows) ∧
    (settings.history.enabled = true → settings.history.maxEntries ≠ 0 →
      ∀ options kind added, call.Means options (.history (.add kind added)) →
        (call.run held).1.status = 0 →
        ∃ path, call.surroundings.databasePath? options.database = some path ∧
          ∀ later, ∃ store opened entries, left.openStore path later = (.ok store, opened) ∧
            store.loadHistory kind (call.surroundings.detectScope options.scope) 0 =
              .ok entries ∧
            entries.length ≤ settings.history.maxEntries.toNat) := by
  have hheld := horderly.afterCalls calls
  have hsettings := (hconfig.afterCalls hdecode calls).loadSettings hpath hdecode
  refine ⟨?_, ?_, ?_⟩
  · intro hdisabled hlimits place db hget
    exact Call.keeps_sessions hheld hsettings hdisabled hlimits hget
  · intro hdisabled hlimits place db hget
    exact Call.keeps_entries hheld hsettings hdisabled hlimits hget
  · intro henabled hlimit options kind added hmeans hstatus
    exact Call.caps_history hheld hsettings henabled hlimit hmeans hstatus

/-! ## Two disks -/

/-- A session and an entry of history, both of the same second. -/
def keptRun : List (Int64 × Operation) :=
  let scope : Scope := ⟨"h", "o", "p", "main"⟩
  [(5, .saveSession (.new "a" "" "" "" 5) scope), (5, .appendHistory .prompt scope "first" 0)]

/-- A database that holds both. -/
def keptDatabase : Database :=
  ((((Database.new 5).ensureScope ⟨"h", "o", "p", "main"⟩).2.writeSession 1
    (.new "a" "" "" "" 5) 5).addEntry .prompt 1 "first" 5)

/-- A disk with that database and a text as the settings. -/
def keptDisk (text : String) : Disk :=
  ⟨[(["home", ".tether", "config.json"], .file (text.toList.map fun c => c.toNat.toUInt8)),
    (["s.db"], .database keptDatabase)]⟩

theorem orderly_keptDisk (text : String) : (keptDisk text).Orderly := by
  refine Disk.orderly_of_play fun place db hget => ⟨none, 5, keptRun, ?_⟩
  rw [Disk.get?] at hget
  split at hget
  · cases hget
  · obtain ⟨front, back, hentries, -⟩ := List.lookup_eq_some_iff.mp hget
    have hmem : (place, DiskEntry.database db) ∈ (keptDisk text).entries := by
      rw [hentries]
      exact List.mem_append_right _ (List.mem_cons_self ..)
    simp only [keptDisk, List.mem_cons, Prod.mk.injEq, reduceCtorEq, and_false, false_or,
      DiskEntry.database.injEq, List.not_mem_nil, or_false] at hmem
    rw [hmem.2]
    rfl

/-- A file in which both policies are switched off, and limits left in them. -/
def offText : String :=
  "\x7b\"sessions\":\x7b\"enabled\":false,\"maxAgeDays\":1\x7d," ++
    "\"history\":\x7b\"enabled\":false,\"maxEntries\":1,\"maxAgeDays\":1\x7d\x7d"

/-- A file with room for one entry in each stream. -/
def cappedText : String := "\x7b\"history\":\x7b\"maxEntries\":1\x7d\x7d"

theorem holdsText_keptDisk {text : String}
    (h : (Text.Utf8.decode? (text.toList.map fun c => c.toNat.toUInt8)).toOption = some text) :
    (keptDisk text).HoldsText "home/.tether/config.json" text := by
  cases hbytes : Text.Utf8.decode? (text.toList.map fun c => c.toNat.toUInt8) with
  | ok decoded =>
    rw [hbytes] at h
    cases h
    have hplace : DiskPath.ofText "home/.tether/config.json" =
        ["home", ".tether", "config.json"] := by decide +kernel
    exact ⟨_, by rw [hplace]; rfl, hbytes⟩
  | error fault =>
    rw [hbytes] at h
    cases h

/-- Years later the session outlives a cleanup, the entry outlives another one, and of two texts
that are added one is left. -/
theorem retention_afterCalls_keptDisk :
    (∃ after, ((Call.mk ["--db", "s.db", "session", "cleanup"] atWork 900000000).run
        (keptDisk offText)).2.get? ["s.db"] = some (.database after) ∧
      ∀ s ∈ keptDatabase.sessions.rows, after.Has keptDatabase s) ∧
    (∃ after, ((Call.mk ["--db", "s.db", "history", "cleanup"] atWork 900000000).run
        (keptDisk offText)).2.get? ["s.db"] = some (.database after) ∧
      ∀ entry ∈ (keptDatabase.history .prompt).rows, entry ∈ (after.history .prompt).rows) ∧
    (let add (text : String) := ["--db", "s.db", "history", "add", text]
      let held := afterCalls (keptDisk cappedText) [⟨add "a", atWork, 6⟩]
      ∃ store opened entries,
        ((Call.mk (add "b") atWork 7).run held).2.openStore "s.db" 8 = (.ok store, opened) ∧
        store.loadHistory .prompt (atWork.detectScope {}) 0 = .ok entries ∧
        entries.length ≤ 1) := by
  have hoff : Settings.decode offText = .ok ⟨{ enabled := false, maxAgeDays := 1 },
      { enabled := false, maxEntries := 1, maxAgeDays := 1 }⟩ := by rfl
  have hcapped : Settings.decode cappedText = .ok ⟨{}, { maxEntries := 1 }⟩ := by rfl
  have htext : (keptDisk offText).HoldsText _ offText := holdsText_keptDisk (by decide +kernel)
  have hcap : (keptDisk cappedText).HoldsText _ cappedText := holdsText_keptDisk (by decide +kernel)
  refine ⟨?_, ?_, ?_⟩
  · let call : Call := ⟨["--db", "s.db", "session", "cleanup"], atWork, 900000000⟩
    have hmeans : call.Means ⟨some "s.db", {}, false, 0, false, false⟩
        (.session (.cleanup none none)) := by rfl
    obtain ⟨hsessions, -, -⟩ :=
      retention_afterCalls (orderly_keptDisk offText) htext hoff [] call rfl
    have hlimits : ¬call.LimitsSessions := by
      rintro ⟨options, maxAgeDays, maxSessions, hother, hgiven⟩
      obtain ⟨-, hcommand⟩ := hmeans.eq hother
      cases hcommand
      exact hgiven ⟨rfl, rfl⟩
    obtain ⟨after, hafter, hkept⟩ := hsessions rfl hlimits ["s.db"] keptDatabase rfl
    refine ⟨after, hafter, fun s hs => (hkept s hs).resolve_left ?_⟩
    rintro ⟨options, command, hother, hdeletes⟩
    obtain ⟨-, rfl⟩ := hmeans.eq hother
    rcases hdeletes with hdeletes | hdeletes
    · cases hdeletes
    · cases hdeletes
  · let call : Call := ⟨["--db", "s.db", "history", "cleanup"], atWork, 900000000⟩
    have hmeans : call.Means ⟨some "s.db", {}, false, 0, false, false⟩
        (.history (.cleanup none)) := by rfl
    obtain ⟨-, hentries, -⟩ :=
      retention_afterCalls (orderly_keptDisk offText) htext hoff [] call rfl
    have hlimits : ¬call.LimitsHistory := by
      rintro ⟨options, maxAgeDays, hother⟩
      obtain ⟨-, hcommand⟩ := hmeans.eq hother
      cases hcommand
    obtain ⟨after, hafter, hkept⟩ := hentries rfl hlimits ["s.db"] keptDatabase rfl
    refine ⟨after, hafter, fun entry hentry => (hkept .prompt entry hentry).resolve_left ?_⟩
    rintro ⟨options, command, hother, hdeletes⟩
    obtain ⟨-, rfl⟩ := hmeans.eq hother
    rcases hdeletes with ⟨hdeletes, -⟩ | hdeletes
    · cases hdeletes
    · cases hdeletes
  · intro add held
    let call : Call := ⟨add "b", atWork, 7⟩
    have hmeans : call.Means ⟨some "s.db", {}, false, 0, false, false⟩
        (.history (.add .prompt "b")) := by rfl
    have hstatus : (call.run held).1.status = 0 := by decide +kernel
    obtain ⟨-, -, hadded⟩ := retention_afterCalls (orderly_keptDisk cappedText) hcap hcapped
      [⟨add "a", atWork, 6⟩] call rfl
    obtain ⟨path, hpath, hopened⟩ := hadded rfl (by decide) _ _ _ hmeans hstatus
    cases hpath
    exact hopened 8

end CommandLine

end SessionArchive
