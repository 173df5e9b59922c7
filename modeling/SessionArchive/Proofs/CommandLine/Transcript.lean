import SessionArchive.Proofs.CommandLine.Reply
import SessionArchive.Proofs.Encoding
import SessionArchive.Proofs.Message.Arrangement
import SessionArchive.Proofs.Store.Saving

/-!
# Printed transcripts

A program that asks for a session as JSON gets one document with its scope and the session, of which
the last messages are kept if it asked for so many. `run_transcript` says that the document is read
as these again: a session in it stands one level deeper than alone, and its messages three levels
deeper than they are stored.
-/

set_option autoImplicit false

namespace SessionArchive

open Json (Field IsTextOf Takes Values entriesOf)

/-! ## Sessions from their texts -/

namespace Session

/-- The members of a session. -/
def members (session : Session) : List (String × Json) :=
  [("id", .string session.id), ("created_at", .int session.createdAt.toInt),
   ("last_updated", .int session.lastUpdated.toInt),
   ("first_prompt", .string session.firstPrompt), ("provider", .string session.provider),
   ("model", .string session.model), ("working_dir", .string session.workingDir),
   ("messages", .array (session.messages.map Message.toJson))]

theorem takes_messages {messages : List Message} {depth : Nat}
    (hdepth : ∀ message ∈ messages, message.toJson.depth ≤ depth + 3) {t : List Char}
    (h : IsTextOf (.array (messages.map Message.toJson)) t) :
    Takes (Json.readList Message.read (depth + 4)) t messages := by
  obtain ⟨texts, htexts, harray⟩ := h.items
  rw [List.forall₂_map_left_iff] at htexts
  have hblanks : Json.PassesBlanks (Message.read (depth + 3)) :=
    Json.passesBlanks_readRecord _ _ _ (depth + 3)
  refine Json.takes_readList hblanks ?_ htexts harray
  exact fun message hmessage text htext => ⟨htext.isText,
    Message.takes_read (hdepth message hmessage) (Message.isWritten_toJson htext)⟩

/-- A session is read from any text of it, where its messages nest no deeper than is allowed. -/
theorem takes_read {session : Session} {depth : Nat}
    (hdepth : ∀ message ∈ session.messages, message.toJson.depth ≤ depth + 3) {t : List Char}
    (h : IsTextOf session.toJson t) : Takes (Session.read (depth + 5)) t session := by
  have hanswer : Values.Answer (Field.TakesAt (depth + 4)) fields
      (session.id, session.createdAt, session.lastUpdated, session.firstPrompt, session.provider,
        session.model, session.workingDir, session.messages, ()) (entriesOf session.members) :=
    ⟨Field.answers_required fun _ h => Json.takes_readString h _,
     Field.answers_required fun _ h => Json.takes_readInt64 h _,
     Field.answers_required fun _ h => Json.takes_readInt64 h _,
     Field.answers_required fun _ h => Json.takes_readString h _,
     Field.answers_required fun _ h => Json.takes_readString h _,
     Field.answers_required fun _ h => Json.takes_readString h _,
     Field.answers_required fun _ h => Json.takes_readString h _,
     Field.answers_required fun _ h => takes_messages hdepth h, trivial⟩
  exact Json.takes_record_of_isTextOf (by decide) hanswer h

end Session

namespace LoadedSession

/-- The fields of a document about a session. -/
abbrev fields : List (Field Json.Reader) :=
  [.required "scope" Scope.read, .required "session" Session.read]

/-- Reads a session with its scope. -/
def read : Json.Reader LoadedSession :=
  Json.readRecord "struct LoadedSession" fields fun (scope, session, ()) => ⟨scope, session⟩

/-- A session is read with its scope from any text of both, where its messages nest no deeper than
is allowed. -/
theorem takes_read {loaded : LoadedSession} {depth : Nat}
    (hdepth : ∀ message ∈ loaded.session.messages, message.toJson.depth ≤ depth + 3)
    {t : List Char} (h : IsTextOf loaded.toJson t) :
    Takes (LoadedSession.read (depth + 6)) t loaded := by
  have hanswer : Values.Answer (Field.TakesAt (depth + 5)) fields
      (loaded.scope, loaded.session, ())
      (entriesOf [("scope", loaded.scope.toJson), ("session", loaded.session.toJson)]) :=
    ⟨Field.answers_required fun _ h => Scope.takes_read h (depth + 4),
     Field.answers_required fun _ h => Session.takes_read hdepth h, trivial⟩
  exact Json.takes_record_of_isTextOf (by decide) hanswer h

end LoadedSession

namespace CommandLine

/-! ## The arguments -/

/-- A number of things as it is written on a command line. -/
def countText (n : UInt64) : String := String.ofList (Text.decimal n.toNat)

/-- The arguments that ask for a session as JSON, and for no more than its last messages if a number
of them is given. -/
def transcriptArguments (id : String) (last : Option UInt64) : List String :=
  ["--json", "session", "show", id] ++
    match last with
    | some n => ["--messages", countText n]
    | none => []

theorem digitsValue?_decimal (n : Nat) : digitsValue? (Text.decimal n) = some n := by
  rw [digitsValue?, List.isEmpty_eq_false_iff.mpr (Text.decimal_ne_nil n),
    Text.ofDecimal?_decimal]
  rfl

theorem unsigned?_decimal (n : Nat) : unsigned? (Text.decimal n) = some n := by
  have hdigits := Text.isDigit_of_mem_decimal n
  rw [unsigned?.eq_def]
  split
  · next heq =>
    -- no digit is a plus sign
    rw [heq] at hdigits
    exact absurd (hdigits '+' List.mem_cons_self) (by decide)
  · exact digitsValue?_decimal n

theorem count?_countText (n : UInt64) : count? (countText n) = some n.toNat := by
  rw [count?, countText, String.toList_ofList, unsigned?_decimal, Option.filter_some, if_pos]
  exact decide_eq_true (Nat.le_of_lt_succ n.toNat_lt)

namespace Reading

theorem looksLikeSwitch_countText (n : UInt64) : looksLikeSwitch (countText n) = false := by
  have hdigits := Text.isDigit_of_mem_decimal n.toNat
  rw [looksLikeSwitch, countText, String.toList_ofList]
  split
  · next heq =>
    rw [heq] at hdigits
    exact absurd (hdigits '-' List.mem_cons_self) (by decide)
  · rfl

/-- What has not the form of a switch is an operand where there are no subcommands. -/
theorem anything_of_not_switch {reading : Reading} {text : String}
    (hchildren : reading.level.place.children = []) (h : looksLikeSwitch text = false) :
    reading.anything text = reading.operand text := by
  rw [anything, hchildren, List.lookup_nil]
  simp only [ne_eq, not_true_eq_false, and_false, if_false]
  rw [looksLikeSwitch] at h
  split at h
  · cases h
  · next hform =>
    split
    · next heq => exact absurd heq (hform _ _)
    · next heq => exact absurd heq (hform _ _)
    · next heq => exact absurd heq (hform _ _)
    · rfl

/-- Only the path of the database is refused a value, and only the empty one. -/
theorem brokenSetting?_eq_none (reading : Reading) {environment : List (String × String)}
    (h : environment.lookup "TETHER_DB" ≠ some "") :
    reading.brokenSetting? environment = none := by
  rw [brokenSetting?, List.findSome?_eq_none_iff]
  intro switch _
  -- of the switches that have a variable, all but the path of the database accept every text
  have haccepts : ∀ kind value, switch.value? = some kind →
      (switch.environmentName?.bind fun name => environment.lookup name) = some value →
      kind.accepts value = true := by
    intro kind value hkind hvalue
    cases switch with
    | database =>
      cases hkind
      exact decide_eq_true fun hempty => h (hempty ▸ hvalue)
    | host | org | project | branch =>
      cases hkind
      rfl
    | _ => cases hvalue
  split
  · next hkind hvalue => rw [haccepts _ _ hkind hvalue, Bool.true_or, if_pos rfl]
  · rfl

/-- What was read once a session is asked for with given switches. -/
def ofTranscript (id : String) (given : List (Switch × Option String)) : Reading :=
  ⟨⟨.sessionShow, given, some id⟩, [Level.start .session, ⟨.top, [(.json, none)], none⟩],
    .anything⟩

theorem foldlM_show {id : String} (h : looksLikeSwitch id = false) :
    ["--json", "session", "show", id].foldlM next start = .ok (ofTranscript id []) := by
  have hplace : ["--json", "session", "show"].foldlM next start =
      .ok ⟨Level.start .sessionShow, (ofTranscript id []).outer, .anything⟩ := by rfl
  have hsplit : ["--json", "session", "show", id] = ["--json", "session", "show"] ++ [id] := rfl
  rw [hsplit, List.foldlM_append, hplace, ok_bind, List.foldlM_cons, next]
  dsimp only
  rw [anything_of_not_switch rfl h]
  rfl

theorem foldlM_messages (id : String) (n : UInt64) :
    ["--messages", countText n].foldlM next (ofTranscript id []) =
      .ok (ofTranscript id [(.messages, some (countText n))]) := by
  have hswitch : (ofTranscript id []).next "--messages" =
      .ok { ofTranscript id [] with expected := .value .messages } := by rfl
  have haccepts : ValueKind.count.accepts (countText n) = true := by
    rw [ValueKind.accepts, count?_countText]
    rfl
  rw [List.foldlM_cons, hswitch, ok_bind, List.foldlM_cons, next]
  simp only [looksLikeSwitch_countText, Bool.false_eq_true, if_false, giveValue, Switch.value?,
    haccepts, if_true]
  rfl

end Reading

/-- Where a session is asked for, the command asks for it, with the number that is given. -/
theorem parse_ofTranscript {arguments : List String} {id : String}
    {given : List (Switch × Option String)} {last : Option Nat}
    (h : arguments.foldlM Reading.next Reading.start = .ok (Reading.ofTranscript id given))
    (hlast : (Reading.ofTranscript id given).level.number? .messages = last)
    {environment : List (String × String)}
    (henvironment : environment.lookup "TETHER_DB" ≠ some "") :
    parse environment arguments = .ok ⟨(Reading.ofTranscript id given).options environment,
      .session (.transcript id last)⟩ := by
  have hall : Reading.all arguments = .ok (Reading.ofTranscript id given) := by
    rw [Reading.all, h]
    rfl
  have hcommand : (Reading.ofTranscript id given).level.command? =
      some (.session (.transcript id last)) := hlast ▸ rfl
  rw [parse, hall, ok_bind, Reading.brokenSetting?_eq_none _ henvironment, hcommand]

/-- An id that has not the form of a switch is understood as that of the session asked for. -/
theorem parse_transcriptArguments {id : String} (h : Reading.looksLikeSwitch id = false)
    (last : Option UInt64) {environment : List (String × String)}
    (henvironment : environment.lookup "TETHER_DB" ≠ some "") :
    ∃ options, parse environment (transcriptArguments id last) =
        .ok ⟨options, .session (.transcript id (last.map UInt64.toNat))⟩ ∧
      options.json = true ∧ options.database = environment.lookup "TETHER_DB" := by
  cases last with
  | none => exact ⟨_, parse_ofTranscript (Reading.foldlM_show h) rfl henvironment, rfl, rfl⟩
  | some n =>
    have hread : (transcriptArguments id (some n)).foldlM Reading.next Reading.start =
        .ok (Reading.ofTranscript id [(.messages, some (countText n))]) := by
      rw [transcriptArguments, List.foldlM_append, Reading.foldlM_show h, ok_bind,
        Reading.foldlM_messages]
    exact ⟨_, parse_ofTranscript hread (count?_countText n) henvironment, rfl, rfl⟩

/-! ## The answer -/

/-- What is shown of a session: all of it, or the last of its messages. -/
def shownOf (loaded : LoadedSession) : Option Nat → LoadedSession
  | some count => { loaded with session := loaded.session.keepLast count }
  | none => loaded

/-- What is shown ends like the session, and is as long as was asked for, if the session is. -/
theorem shownOf_eq (loaded : LoadedSession) (last : Option Nat) :
    ∃ earlier messages, loaded.session.messages = earlier ++ messages ∧
      messages.length = (last.elim loaded.session.messages.length fun n =>
        min n loaded.session.messages.length) ∧
      shownOf loaded last = ⟨loaded.scope, { loaded.session with messages }⟩ := by
  cases last with
  | none => exact ⟨[], loaded.session.messages, rfl, rfl, rfl⟩
  | some n =>
    refine ⟨_, _, (List.take_append_drop (loaded.session.messages.length - n) _).symm, ?_, rfl⟩
    rw [List.length_drop, Option.elim_some]
    omega

/-- What is printed of a session means the session. -/
theorem Answer.isTextOf_transcript {loaded : LoadedSession} (h : loaded.toJson.Integral)
    (style : Style) :
    IsTextOf loaded.toJson ((Answer.transcript loaded).printed style true).toList := by
  have hbreak : Json.AreBlanks ['\n'] := List.forall_mem_singleton.mpr (by decide)
  have hline := (Json.isTextOf_indented _ h 0).padded Json.areBlanks_nil hbreak
  have hprinted : ((Answer.transcript loaded).printed style true).toList =
      loaded.toJson.indented 0 ++ ['\n'] := by
    rw [printed, if_pos rfl, String.toList_append]
    exact congrArg (· ++ ['\n']) String.toList_ofList
  rwa [hprinted]

section Run

variable {options : Options} {surroundings : Surroundings} {disk opened : Disk} {now : Int64}
  {settings : Settings} {path id : String} {store : Store} {loaded : LoadedSession}

/-- A session that loads is the answer of the command that asks for it. -/
theorem run_transcript_reply (hsettings : disk.loadSettings surroundings = .ok settings)
    (hpath : surroundings.databasePath? options.database = some path)
    (hopen : disk.openStore path now = (.ok store, opened))
    (hload : store.loadSession id = .ok loaded) (last : Option Nat) :
    ∃ events, (Invocation.run ⟨options, .session (.transcript id last)⟩ surroundings disk now).1 =
      replyOf options surroundings events (.ok (.transcript (shownOf loaded last))) := by
  refine ⟨[.opened path, .loadedSession id loaded.session.messages.length], ?_⟩
  simp only [Invocation.run, withContext, hsettings, withStore, hpath, hopen,
    SessionCommand.execute, hload, Outcome.of]
  cases last <;> rfl

/-- A database without a file is empty, so that no session loads from it. -/
theorem path_ne_empty (hopen : disk.openStore path now = (.ok store, opened))
    (hload : store.loadSession id = .ok loaded) : path ≠ "" := by
  rintro rfl
  rw [Disk.openStore, if_pos (.inl rfl)] at hopen
  cases hopen
  cases hload

end Run

theorem integral_shown {loaded : LoadedSession} (h : loaded.session.toJson.Integral)
    {earlier messages : List Message} (hmessages : loaded.session.messages = earlier ++ messages) :
    (LoadedSession.toJson ⟨loaded.scope, { loaded.session with messages }⟩).Integral := by
  have hall : ∀ message ∈ loaded.session.messages, message.toJson.Integral := by
    simpa [Session.toJson] using h
  simp only [LoadedSession.toJson, Session.toJson, Scope.toJson, Scope.members,
    Json.integral_object, List.forall_mem_cons, Json.integral_string, Json.integral_int,
    Json.integral_array, List.forall_mem_map, List.not_mem_nil, false_implies, implies_true,
    and_true, true_and]
  exact fun message hm => hall message (hmessages ▸ List.mem_append_right _ hm)

/-- A text about a session: its members are read as the scope and the session, together and each for
itself. -/
structure Shows (text : List Char) (loaded : LoadedSession) : Prop where
  means : IsTextOf loaded.toJson text
  together : Json.read LoadedSession.read text = .ok loaded
  apart : ∃ members scope session, Json.IsObjectOf members text ∧
    Json.withKey "scope" members = [("scope", scope)] ∧
    Json.read Scope.read scope = .ok loaded.scope ∧
    Json.withKey "session" members = [("session", session)] ∧
    Json.read Session.read session = .ok loaded.session

theorem shows_of_isTextOf {loaded : LoadedSession}
    (hdepth : ∀ message ∈ loaded.session.messages, message.toJson.depth ≤ 124) {text : List Char}
    (h : IsTextOf loaded.toJson text) : Shows text loaded := by
  refine ⟨h, Json.read_of_takes (LoadedSession.takes_read hdepth h), ?_⟩
  obtain ⟨hobject, hknown, -⟩ := h.isArrangement (by simp)
  rw [entriesOf, List.forall_mem_map] at hknown
  have hscope := hknown ("scope", loaded.scope.toJson) (by simp)
  have hsession := hknown ("session", loaded.session.toJson) (by simp)
  -- neither member may be left out, so each is there under its name
  cases hscope with
  | silent _ h => exact h.elim
  | named hscope htext =>
    cases hsession with
    | silent _ h => exact h.elim
    | named hsession htext' =>
      refine ⟨_, _, _, hobject, hscope, Json.read_of_takes (Scope.takes_read htext 126),
        hsession, ?_⟩
      have hdeeper : ∀ message ∈ loaded.session.messages, message.toJson.depth ≤ 122 + 3 :=
        fun message hm => Nat.le_succ_of_le (hdepth message hm)
      exact Json.read_of_takes (Session.takes_read hdeeper htext')

/-- What a program is told that asks for a session which loads, as JSON and perhaps for its last
messages only. The document that it gets means the scope and the session, with all messages or as
many of the last ones as it asked for. -/
theorem run_transcript {surroundings : Surroundings} {disk opened : Disk} {now : Int64}
    {settings : Settings} {path id : String} {store : Store} {loaded : LoadedSession}
    (hid : Reading.looksLikeSwitch id = false)
    (hsettings : disk.loadSettings surroundings = .ok settings)
    (hpath : surroundings.databasePath? (surroundings.get? "TETHER_DB") = some path)
    (hopen : disk.openStore path now = (.ok store, opened))
    (hload : store.loadSession id = .ok loaded) (hint : loaded.session.toJson.Integral)
    (hdepth : ∀ message ∈ loaded.session.messages, message.toJson.depth ≤ 124)
    (last : Option UInt64) :
    let reply := (run (transcriptArguments id last) surroundings disk now).1
    reply.status = 0 ∧
      ∃ earlier messages, loaded.session.messages = earlier ++ messages ∧
        messages.length = (last.elim loaded.session.messages.length fun n =>
          min n.toNat loaded.session.messages.length) ∧
        Shows reply.out.toList ⟨loaded.scope, { loaded.session with messages }⟩ := by
  intro reply
  have hne := path_ne_empty hopen hload
  have henvironment : surroundings.environment.lookup "TETHER_DB" ≠ some "" := by
    intro hempty
    rw [Surroundings.get?, hempty] at hpath
    exact hne (Option.some.inj hpath).symm
  obtain ⟨options, hparse, hjson, hdatabase⟩ := parse_transcriptArguments hid last henvironment
  rw [← Surroundings.get?] at hdatabase
  obtain ⟨events, hreply⟩ :=
    run_transcript_reply hsettings (hdatabase ▸ hpath) hopen hload (last.map UInt64.toNat)
  obtain ⟨earlier, messages, hmessages, hlength, hshown⟩ :=
    shownOf_eq loaded (last.map UInt64.toNat)
  have hout : reply = replyOf options surroundings events
      (.ok (.transcript ⟨loaded.scope, { loaded.session with messages }⟩)) := by
    rw [← hshown, ← hreply]
    exact congrArg Prod.fst (run_parsed hparse disk now)
  refine ⟨congrArg Reply.status hout, earlier, messages, hmessages, ?_, ?_⟩
  · rw [hlength]
    cases last <;> rfl
  · have htext := congrArg (fun reply => reply.out.toList) hout
    simp only [replyOf, hjson] at htext
    rw [htext]
    refine shows_of_isTextOf ?_ (Answer.isTextOf_transcript (integral_shown hint hmessages) _)
    exact fun message hm => hdepth message (hmessages ▸ List.mem_append_right _ hm)

/-! ## A transcript that nests deep -/

/-- A message that nests as deep as can be shown. -/
def nested : Message :=
  ⟨.assistant, [.toolCall "c" "n" ⟨Nat.repeat (fun v => .array [v]) 121 .null, by decide +kernel⟩],
    7⟩

/-- A session of two messages, saved in the fifth second. -/
def nestedSession : Session := ⟨"s", 1, 5, "a\"", "p", "m", "/", [.ofText .user "a\"" 1, nested]⟩

/-- A database with that session. -/
def nestedDatabase : Store.Database :=
  let there := (Store.Database.new 5).ensureScope ⟨"h", "o", "p", "main"⟩
  there.2.writeSession there.1 nestedSession 5

/-- A disk with that database. -/
def nestedDisk : Disk := ⟨[(["s.db"], .database nestedDatabase)]⟩

/-- Surroundings that name the file of the database. -/
def atDatabase : Surroundings :=
  ⟨[("HOME", "home"), ("TETHER_DB", "s.db")], some "work", ⟨none, none⟩⟩

theorem integral_nestedSession : nestedSession.toJson.Integral := by decide +kernel

/-- What was saved right before is loaded, where its messages read back. -/
theorem loadSession_saved {session : Session} (hint : session.toJson.Integral)
    (hplace : session.messages.findIdx? Message.isTooDeep = none) (scope : Scope)
    (start now : Int64) :
    let there := (Store.Database.new start).ensureScope scope
    (there.2.writeSession there.1 session now).loadSession session.id =
      .ok ⟨scope, { session with lastUpdated := now }⟩ := by
  have hload := (Store.Database.sound_new start).loadSession_writeSession session scope now
  have hdecode := Store.decodeAll_columnsOf session.id session.messages
  have hmessages : ∀ m ∈ session.messages, m.toJson.Integral := by
    simpa [Session.toJson] using hint
  have hreread : session.messages.map Message.reread = session.messages :=
    (List.map_congr_left fun m hm => Message.reread_of_integral (hmessages m hm)).trans
      (List.map_id session.messages)
  rw [hplace] at hdecode
  dsimp only at hdecode
  rw [hdecode, hreread] at hload
  exact hload

theorem loadSettings_nestedDisk : nestedDisk.loadSettings atDatabase = .ok {} := by
  have hpath : atDatabase.settingsPath? = some "home/.tether/config.json" := by decide +kernel
  have hplace : DiskPath.ofText "home/.tether/config.json" =
      ["home", ".tether", "config.json"] := by decide +kernel
  rw [Disk.loadSettings, hpath]
  dsimp only
  rw [hplace]
  rfl

theorem openStore_nestedDisk : nestedDisk.openStore "s.db" 9 =
    (.ok ⟨some "s.db", some nestedDatabase⟩,
      nestedDisk.insert ["s.db"] (.database nestedDatabase)) := by
  have hplace : DiskPath.ofText "s.db" = ["s.db"] := by decide +kernel
  rw [Disk.openStore, if_neg (by decide), hplace]
  rfl

/-- Of the two messages the last one is shown. -/
theorem run_transcript_nested :
    Reading.looksLikeSwitch "s" = false ∧ nestedDisk.loadSettings atDatabase = .ok {} ∧
      atDatabase.databasePath? (atDatabase.get? "TETHER_DB") = some "s.db" ∧
      nestedSession.toJson.Integral ∧
      (∀ message ∈ nestedSession.messages, message.toJson.depth ≤ 124) ∧
      (∃ store opened, nestedDisk.openStore "s.db" 9 = (.ok store, opened) ∧
        store.loadSession "s" = .ok ⟨⟨"h", "o", "p", "main"⟩, nestedSession⟩) ∧
      Shows (run ["--json", "session", "show", "s", "--messages", "1"] atDatabase
        nestedDisk 9).1.out.toList
          ⟨⟨"h", "o", "p", "main"⟩, { nestedSession with messages := [nested] }⟩ := by
  have hdepth : ∀ message ∈ nestedSession.messages, message.toJson.depth ≤ 124 := by
    decide +kernel
  have hload : Store.loadSession ⟨some "s.db", some nestedDatabase⟩ "s" =
      .ok ⟨⟨"h", "o", "p", "main"⟩, nestedSession⟩ :=
    loadSession_saved integral_nestedSession (by decide +kernel) ⟨"h", "o", "p", "main"⟩ 5 5
  obtain ⟨-, earlier, messages, hmessages, hlength, hshows⟩ := run_transcript rfl
    loadSettings_nestedDisk rfl openStore_nestedDisk hload integral_nestedSession hdepth (some 1)
  refine ⟨rfl, loadSettings_nestedDisk, rfl, integral_nestedSession, hdepth,
    ⟨_, _, openStore_nestedDisk, hload⟩, ?_⟩
  have harguments : transcriptArguments "s" (some 1) =
      ["--json", "session", "show", "s", "--messages", "1"] := by decide +kernel
  have hlast : messages = [nested] := by
    obtain ⟨last, rfl⟩ := List.length_eq_one_iff.mp hlength
    have hsame := congrArg List.getLast? hmessages
    have hnested : nestedSession.messages.getLast? = some nested := rfl
    rw [List.getLast?_concat, hnested] at hsame
    rw [Option.some.inj hsame]
  rw [harguments, hlast] at hshows
  exact hshows

end CommandLine

end SessionArchive
