import SessionArchive.Proofs.CommandLine.Conclusion
import SessionArchive.Proofs.Json.Grammar
import SessionArchive.Proofs.Message

/-!
# What a command replies

The answer of a command that succeeds is a JSON text or, for people, a text that is never empty. A
failure is one line of JSON with its wording and the exit status in it. `run_json` says what a
program that asks for JSON sees of every command line that is understood, and `run_quiet` what the
option to be quiet does to the replies for people: it takes away what goes to the error output,
failures included, and leaves the answers.
-/

set_option autoImplicit false

namespace SessionArchive

open Json (IsText)
open Store (Database)

/-! ## Answers as JSON -/

theorem Message.printable_toJson (message : Message) : message.toJson.Printable :=
  Json.printable_of_fits message.fits_toJson

namespace CommandLine

namespace Answer

/-- Only the inputs of tools hold other numbers than integers, and these fit. -/
theorem printable_toJson (answer : Answer) : answer.toJson.Printable := by
  cases answer with
  | initialized path schema =>
    cases schema <;> simp [toJson]
  | version => simp [toJson]
  | sessions scope summaries =>
    simp [toJson, listJson, SessionSummary.toJson, Scope.members]
  | transcript loaded =>
    simp [toJson, LoadedSession.toJson, Session.toJson, Scope.toJson, Scope.members,
      Message.printable_toJson]
  | hits pattern found => simp [toJson, listJson, Store.SearchHit.toJson]
  | removedSessions report maxAgeDays maxSessions => simp [toJson, Store.CleanupReport.toJson]
  | history kind scope entries =>
    simp [toJson, listJson, HistoryEntry.toJson, HistoryKind.toJson, Scope.toJson, Scope.members]
  | addedHistory kind scope text =>
    apply Json.printable_canonicalize
    simp [HistoryKind.toJson, Scope.toJson, Scope.members]
  | clearedHistory kind scope removed => simp [toJson, HistoryKind.toJson]
  | repositories rows => simp [toJson, listJson, Repository.toJson]
  | branches id rows => simp [toJson, listJson, Branch.toJson]
  | stats path counts => simp [toJson, Store.StoreStats.toJson]
  | _ => simp [toJson]

/-- What is printed for programs is one JSON value and the end of its line. -/
theorem isText_printed (answer : Answer) (style : Style) :
    IsText (answer.printed style true).toList := by
  have hbreak : Json.AreBlanks ['\n'] := by
    intro c hc
    rw [List.mem_singleton.mp hc]
    decide
  have hdocument : IsText answer.document.toList := by
    unfold document
    split
    · rw [Json.toCompact, String.toList_ofList]
      exact Json.isText_compact _ (printable_toJson .version)
    · rw [Json.toIndented, String.toList_ofList]
      exact Json.isText_indented _ answer.printable_toJson 0
  have hline := IsText.padded Json.areBlanks_nil hdocument hbreak
  rw [printed, if_pos rfl, String.toList_append]
  exact hline

/-! ## Answers as text -/

theorem lines_ne_empty {texts : List String} (h : texts ≠ []) : lines texts ≠ "" := by
  cases texts with
  | nil => exact absurd rfl h
  | cons text rest =>
    rw [lines, List.map_cons, String.join_cons]
    intro hempty
    have hfirst := (String.append_eq_empty_iff.mp hempty).1
    have hbreak := (String.append_eq_empty_iff.mp hfirst).2
    exact absurd hbreak (by decide)

/-- Every answer is told in at least one line. -/
theorem text_ne_empty (style : Style) (answer : Answer) : answer.text style ≠ "" := by
  cases answer with
  | initialized path schema => exact lines_ne_empty (by simp)
  | sessions scope summaries =>
    simp only [text, sessionsText]
    split
    · exact lines_ne_empty (List.cons_ne_nil _ _)
    · exact lines_ne_empty (List.cons_ne_nil _ _)
  | transcript loaded => exact lines_ne_empty (by simp)
  | hits pattern found =>
    simp only [text]
    split
    · exact lines_ne_empty (List.cons_ne_nil _ _)
    · rename_i hfound
      cases found with
      | nil => exact absurd rfl hfound
      | cons hit rest => exact lines_ne_empty (by simp [hitLines])
  | history kind scope entries =>
    simp only [text]
    split
    · exact lines_ne_empty (List.cons_ne_nil _ _)
    · rename_i hentries
      exact lines_ne_empty (by simpa using hentries)
  | repositories rows =>
    simp only [text]
    split
    · exact lines_ne_empty (List.cons_ne_nil _ _)
    · rename_i hrows
      exact lines_ne_empty (by simpa using hrows)
  | branches id rows =>
    simp only [text]
    split
    · exact lines_ne_empty (List.cons_ne_nil _ _)
    · rename_i hrows
      exact lines_ne_empty (by simpa using hrows)
  | stats path counts => exact lines_ne_empty (by simp [statsLines])
  | _ => exact lines_ne_empty (List.cons_ne_nil _ _)

end Answer

/-! ## Failures as JSON -/

/-- The members of the object that tells of a failure. -/
def failureMembers (failure : Failure) : List (String × Json) :=
  [("code", .string failure.code.name), ("exit_code", .nat failure.exitStatus)] ++
    (failure.hint.map fun text => ("hint", .string text)).toList ++
    [("message", .string failure.message), ("retryable", .bool failure.code.isRetryable)]

theorem failure_toJson (failure : Failure) :
    failure.toJson = .object [("error", .object (failureMembers failure))] := by
  simp only [Failure.toJson, failureMembers]
  cases failure.hint with
  | none => rfl
  | some text => rfl

/-- The message is found whether or not there is a hint before it. -/
theorem lookup_failureMembers (failure : Failure) :
    (failureMembers failure).lookup "exit_code" = some (.nat failure.exitStatus) ∧
      (failureMembers failure).lookup "message" = some (.string failure.message) := by
  rw [failureMembers]
  cases failure.hint with
  | none => exact ⟨rfl, rfl⟩
  | some text => exact ⟨rfl, rfl⟩

theorem exitStatus_bounds (failure : Failure) :
    0 < failure.exitStatus ∧ failure.exitStatus ≤ 8 := by
  rw [Failure.exitStatus]
  cases failure.code <;> decide

theorem numbers_failure (failure : Failure) :
    failure.toJson.numbers = [.integer failure.exitStatus] := by
  rw [failure_toJson, failureMembers]
  cases failure.hint with
  | none => rfl
  | some text => rfl

theorem depth_failure (failure : Failure) : failure.toJson.depth = 2 := by
  rw [failure_toJson, failureMembers]
  cases failure.hint with
  | none => rfl
  | some text => rfl

/-- The line about a failure is read as what it was written from. -/
theorem read_failure (failure : Failure) :
    Json.read Json.anyValue failure.toJson.toCompact.toList = .ok failure.toJson := by
  -- the only number of the line is the exit status, which is small
  have hnumbers := numbers_failure failure
  have hint : failure.toJson.Integral := by
    intro n hn
    rw [hnumbers, List.mem_singleton] at hn
    rw [hn]
    rfl
  have hfits : failure.toJson.fits = true := by
    rw [Json.fits_iff, hnumbers]
    intro n hn
    have hle := (exitStatus_bounds failure).2
    rw [List.mem_singleton.mp hn]
    simp only [Json.Numeral.fits, Bool.and_eq_true, decide_eq_true_eq]
    omega
  have hdepth : failure.toJson.depth ≤ Json.greatestDepth := by
    rw [depth_failure]
    decide
  have hread := Json.reads_compact failure.toJson Json.greatestDepth hdepth
    (Json.legible_of_integral hint hfits) [] trivial
  rw [List.append_nil, Json.reread_of_integral _ hint hfits] at hread
  rw [Json.toCompact, String.toList_ofList, Json.read, hread]
  rfl

theorem printable_failure (failure : Failure) : failure.toJson.Printable := by
  intro n hn
  rw [numbers_failure, List.mem_singleton] at hn
  rw [hn]
  exact Json.isNumber_integer _

/-! ## The log -/

theorem rank_of_mild {events : List Event} (h : Mild events) :
    ∀ event ∈ events, 2 < event.severity.rank := by
  intro event hevent
  rcases h event hevent with hseverity | hseverity
  · rw [hseverity]
    decide
  · rw [hseverity]
    decide

/-- A log without a preamble is empty where its filter lets nothing through. -/
theorem Log.text_eq_empty {log : Log} {events : List Event} (hpreamble : log.preamble = "")
    (hfilter : ∀ event ∈ events, log.filter.allows event = false) : log.text events = "" := by
  have hnone : events.filter log.filter.allows = [] := by
    rw [List.filter_eq_nil_iff]
    intro event hevent
    rw [hfilter event hevent]
    exact Bool.false_ne_true
  rw [Log.text, hnone, hpreamble]
  rfl

/-- To be quiet is to write no log at all. -/
theorem text_quiet (environment : List (String × String)) {options : Options}
    (hquiet : options.quiet = true) (events : List Event) :
    (Log.ofOptions environment options).text events = "" := by
  rw [Log.ofOptions, if_pos hquiet]
  exact Log.text_eq_empty rfl fun event _ => rfl

/-- Without an option or a variable for it, what is no warning is not written. -/
theorem text_mild {environment : List (String × String)} {options : Options}
    (hverbosity : options.verbosity = 0) (hlog : environment.lookup "RUST_LOG" = none)
    {events : List Event} (hmild : Mild events) :
    (Log.ofOptions environment options).text events = "" := by
  cases hquiet : options.quiet with
  | true => exact text_quiet environment hquiet events
  | false =>
    rw [Log.ofOptions, if_neg (by rw [hquiet]; exact Bool.false_ne_true), hlog, hverbosity]
    refine Log.text_eq_empty rfl ?_
    intro event hevent
    have hrank := rank_of_mild hmild event hevent
    simp only [LogFilter.allows, LogFilter.ofVerbosity, List.filter_singleton]
    -- the one directive lets only warnings and errors through, if it fits the source at all
    cases event.source.name.startsWith "" with
    | true => exact decide_eq_false (Nat.not_le_of_lt hrank)
    | false => rfl

/-! ## Replies -/

section Replies

variable {surroundings : Surroundings} {options : Options} {events : List Event}

theorem replyOf_ok (answer : Answer)
    (htext : (Log.ofOptions surroundings.environment options).text events = "") :
    replyOf options surroundings events (.ok answer) =
      ⟨0, answer.printed (Style.ofEnvironment surroundings.environment options.plain) options.json,
        ""⟩ := by
  rw [replyOf.eq_def]
  dsimp only
  rw [htext]

theorem replyOf_error (failure : Failure)
    (htext : (Log.ofOptions surroundings.environment options).text events = "") :
    replyOf options surroundings events (.error failure) =
      ⟨failure.exitStatus, "", failureText options failure⟩ := by
  rw [replyOf.eq_def]
  dsimp only
  rw [htext, String.empty_append]

/-- What is printed about a failure for programs is one line, from which the status and the wording
of the failure can be read. -/
theorem failureText_json (hjson : options.json = true) (failure : Failure) :
    ∃ line members, failureText options failure = line ++ "\n" ∧ '\n' ∉ line.toList ∧
      IsText line.toList ∧
      Json.read Json.anyValue line.toList = .ok (.object [("error", .object members)]) ∧
      members.lookup "exit_code" = some (.nat failure.exitStatus) ∧
      members.lookup "message" = some (.string failure.message) := by
  have hline : failure.toJson.toCompact.toList = failure.toJson.compact := String.toList_ofList
  refine ⟨failure.toJson.toCompact, failureMembers failure, ?_, ?_, ?_, ?_,
    lookup_failureMembers failure⟩
  · rw [failureText, if_pos hjson]
  · rw [hline]
    exact Json.break_not_mem_compact _ (printable_failure failure)
  · rw [hline]
    exact Json.isText_compact _ (printable_failure failure)
  · rw [read_failure, failure_toJson]

end Replies

theorem run_parsed {arguments : List String} {surroundings : Surroundings} {invocation : Invocation}
    (hparse : parse surroundings.environment arguments = .ok invocation) (disk : Disk)
    (now : Int64) :
    run arguments surroundings disk now = invocation.run surroundings disk now := by
  rw [run, hparse]

/-- What a program sees that asks for JSON and for no log, whatever command it gives in whatever
state of the disk. Where the exit status is not zero, nothing is on the standard output, the error
output is one line of JSON with the wording and the status of the failure that the command ended
with, and no database has changed. Where it is zero, the error output is empty, and the standard
output is one JSON text, but for completions. -/
theorem run_json {arguments : List String} {surroundings : Surroundings} {invocation : Invocation}
    (hparse : parse surroundings.environment arguments = .ok invocation)
    (hjson : invocation.options.json = true) (hverbosity : invocation.options.verbosity = 0)
    (hlog : surroundings.get? "RUST_LOG" = none) (disk : Disk) (now : Int64) :
    let (reply, after) := run arguments surroundings disk now
    (reply.status ≠ 0 →
      reply.out = "" ∧
      (∃ events failure line members,
        invocation.Ends surroundings disk now events (.error failure) after ∧
        reply.err = line ++ "\n" ∧ '\n' ∉ line.toList ∧ IsText line.toList ∧
        Json.read Json.anyValue line.toList = .ok (.object [("error", .object members)]) ∧
        members.lookup "exit_code" = some (.nat reply.status) ∧
        members.lookup "message" = some (.string failure.message)) ∧
      ∀ place db, disk.get? place = some (.database db) → db.Current →
        after.get? place = some (.database db)) ∧
    (reply.status = 0 →
      reply.err = "" ∧
      ((∀ shell, invocation.command ≠ .completions shell) → IsText reply.out.toList)) := by
  rw [run_parsed hparse]
  by_cases hexecuted : ∀ shell, invocation.command ≠ .completions shell
  · obtain ⟨events, result, after, hends, hreply⟩ :=
      Invocation.run_ends hexecuted surroundings disk now
    have htext := text_mild hverbosity hlog hends.mild
    rw [hreply invocation.options rfl rfl]
    cases result with
    | ok answer =>
      rw [replyOf_ok answer htext, hjson]
      dsimp only
      exact ⟨fun hstatus => absurd rfl hstatus, fun _ => ⟨rfl, fun _ => answer.isText_printed _⟩⟩
    | error failure =>
      obtain ⟨line, members, hline, hbreak, hgrammar, hread, hcode, hmessage⟩ :=
        failureText_json hjson failure
      rw [replyOf_error failure htext, hline]
      refine ⟨fun _ => ⟨rfl, ?_, ?_⟩, fun hstatus => ?_⟩
      · exact ⟨events, failure, line, members, hends, rfl, hbreak, hgrammar, hread, hcode, hmessage⟩
      · intro place db hget hcurrent
        exact hends.keeps hget hcurrent
      · exact absurd hstatus (Nat.ne_of_gt (exitStatus_bounds failure).1)
  · obtain ⟨shell, hshell⟩ := not_forall.mp hexecuted
    have hcommand : invocation.command = .completions shell := not_not.mp hshell
    simp only [Invocation.run, hcommand]
    rw [text_mild hverbosity hlog mild_nil]
    refine ⟨fun hstatus => absurd rfl hstatus, fun _ => ⟨rfl, fun hother => ?_⟩⟩
    exact absurd rfl (hother shell)

/-- The surroundings of a command in the directory `work`, without version control. -/
def atWork : Surroundings := ⟨[("HOME", "home")], some "work", ⟨none, none⟩⟩

/-- A disk with a database without rows. -/
def deskDisk : Disk := ⟨[(["s.db"], .database (Database.new 5))]⟩

/-- A session is deleted that is not there, whose id has a quote and a line break in it. -/
theorem run_json_missing :
    let arguments := ["--json", "--db", "s.db", "session", "delete", "n\"o\npe"]
    let (reply, after) := run arguments atWork deskDisk 9
    reply.status = 3 ∧ reply.out = "" ∧
      (∃ line members, reply.err = line ++ "\n" ∧ '\n' ∉ line.toList ∧
        Json.read Json.anyValue line.toList = .ok (.object [("error", .object members)]) ∧
        members.lookup "exit_code" = some (.nat 3)) ∧
      after.get? ["s.db"] = some (.database (Database.new 5)) := by
  intro arguments
  have hparse : parse atWork.environment arguments =
      .ok ⟨⟨some "s.db", {}, true, 0, false, false⟩, .session (.delete "n\"o\npe")⟩ := by
    rfl
  have hstatus : (run arguments atWork deskDisk 9).1.status = 3 := by decide +kernel
  have hrun := run_json hparse rfl rfl rfl deskDisk 9
  generalize run arguments atWork deskDisk 9 = outcome at hstatus hrun ⊢
  obtain ⟨reply, after⟩ := outcome
  obtain ⟨hout, ⟨events, failure, line, members, -, herr, hbreak, -, hread, hcode, -⟩, hkept⟩ :=
    hrun.1 (by rw [hstatus]; decide)
  rw [hstatus] at hcode
  exact ⟨hstatus, hout, ⟨line, members, herr, hbreak, hread, hcode⟩,
    hkept ["s.db"] _ rfl (Store.Database.current_new 5)⟩

/-- What the option to be quiet does to the reply for people: what goes to the error output is left
out, the message about a failure included, and nothing else changes. A command that succeeds still
prints its answer, and of one that fails the exit status alone tells. -/
theorem run_quiet {arguments : List String} {surroundings : Surroundings}
    {invocation : Invocation}
    (hparse : parse surroundings.environment arguments = .ok invocation)
    (hquiet : invocation.options.quiet = true) (hjson : invocation.options.json = false)
    (hexecuted : ∀ shell, invocation.command ≠ .completions shell) (disk : Disk) (now : Int64) :
    let loud : Invocation := ⟨{ invocation.options with quiet := false }, invocation.command⟩
    let told := (loud.run surroundings disk now).1
    let reply := (run arguments surroundings disk now).1
    reply = ⟨told.status, told.out, ""⟩ ∧
      (run arguments surroundings disk now).2 = (loud.run surroundings disk now).2 ∧
      (reply.status = 0 → reply.out ≠ "") ∧ (reply.status ≠ 0 → reply.out = "") := by
  intro loud told reply
  obtain ⟨events, result, after, -, hreply⟩ :=
    Invocation.run_ends hexecuted surroundings disk now
  have htext := text_quiet surroundings.environment hquiet events
  have hrun := (run_parsed hparse disk now).trans (hreply invocation.options rfl rfl)
  have hloud := hreply loud.options rfl rfl
  simp only [reply, told]
  rw [hrun, hloud]
  cases result with
  | ok answer =>
    rw [replyOf_ok answer htext]
    refine ⟨rfl, rfl, fun _ => ?_, fun hstatus => absurd rfl hstatus⟩
    dsimp only
    rw [hjson]
    exact answer.text_ne_empty _
  | error failure =>
    have hnothing : failureText invocation.options failure = "" := by
      rw [failureText, hjson, hquiet]
      rfl
    rw [replyOf_error failure htext, hnothing]
    refine ⟨rfl, rfl, fun hstatus => ?_, fun _ => rfl⟩
    exact absurd hstatus (Nat.ne_of_gt (exitStatus_bounds failure).1)

/-- A database is made and told of, but a session that is not there is deleted in silence. -/
theorem run_quiet_atWork :
    (run ["--quiet", "--db", "s.db", "init"] atWork Disk.empty 5).1.out ≠ "" ∧
      (run ["--quiet", "--db", "s.db", "session", "delete", "nope"] atWork deskDisk 9).1 =
        ⟨3, "", ""⟩ := by
  constructor
  · have hparse : parse atWork.environment ["--quiet", "--db", "s.db", "init"] =
        .ok ⟨⟨some "s.db", {}, false, 0, true, false⟩, .init⟩ := by rfl
    have hstatus : (run ["--quiet", "--db", "s.db", "init"] atWork Disk.empty 5).1.status = 0 := by
      decide +kernel
    exact (run_quiet hparse rfl rfl (fun _ => nofun) Disk.empty 5).2.2.1 hstatus
  · have hparse : parse atWork.environment
        ["--quiet", "--db", "s.db", "session", "delete", "nope"] =
        .ok ⟨⟨some "s.db", {}, false, 0, true, false⟩, .session (.delete "nope")⟩ := by rfl
    have hstatus : (run ["--quiet", "--db", "s.db", "session", "delete", "nope"] atWork deskDisk
        9).1.status = 3 := by decide +kernel
    obtain ⟨hreply, -, -, hout⟩ :=
      run_quiet hparse rfl rfl (fun _ => nofun) deskDisk 9
    have herr := congrArg Reply.err hreply
    have hnothing := hout (by rw [hstatus]; decide)
    generalize (run ["--quiet", "--db", "s.db", "session", "delete", "nope"] atWork deskDisk 9).1 =
      reply at hstatus hnothing herr ⊢
    obtain ⟨status, out, err⟩ := reply
    cases hstatus
    cases hnothing
    cases herr
    rfl

end CommandLine

end SessionArchive
