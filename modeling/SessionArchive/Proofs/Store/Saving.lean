import SessionArchive.Proofs.Json.Float
import SessionArchive.Proofs.Store.Loading

/-!
# What a save leaves to a load

A save writes every session, however deep the inputs in its messages nest; a load has a limit on the
nesting. `saveSession_play` says what a load answers right after a save: the session, or that the
first message which nests too deep is corrupt. What the session held before is gone in both cases.
-/

set_option autoImplicit false

namespace SessionArchive

open Store (Database columnsOf decodeAll)

namespace Message

/-- Whether a message nests deeper than can be read. -/
def isTooDeep (message : Message) : Bool := Json.greatestDepth < message.toJson.depth

theorem legible (message : Message) : message.toJson.Legible :=
  Json.legible_of_fits message.fits_toJson

theorem decode_encode_of_not_tooDeep {message : Message} (h : message.isTooDeep = false) :
    decode message.encode = .ok message.reread := by
  simp only [isTooDeep, decide_eq_false_iff_not, Nat.not_lt] at h
  exact decode_encode_of_legible h message.legible

theorem decode_encode_of_tooDeep {message : Message} (h : message.isTooDeep = true) :
    ∃ fault, decode message.encode = .error fault := by
  simp only [isTooDeep, decide_eq_true_eq] at h
  exact decode_encode_too_deep h message.legible

end Message

namespace Store

/-- The stored messages are decoded, up to the first that nests too deep. -/
theorem decodeAll_columnsOf (sessionId : String) (messages : List Message) :
    match messages.findIdx? Message.isTooDeep with
    | none => decodeAll sessionId (columnsOf 0 messages) = .ok (messages.map Message.reread)
    | some place => ∃ reason, decodeAll sessionId (columnsOf 0 messages) =
        .error (.corruptMessage sessionId place reason) := by
  cases hplace : messages.findIdx? Message.isTooDeep with
  | none =>
    rw [List.findIdx?_eq_none_iff] at hplace
    exact decodeAll_ok sessionId 0 fun m hm => Message.decode_encode_of_not_tooDeep (hplace m hm)
  | some place =>
    obtain ⟨hlt, hdeep, hbefore⟩ := List.findIdx?_eq_some_iff_getElem.mp hplace
    -- the messages before the place are decoded, and the one there fails
    have hsplit : messages =
        messages.take place ++ messages[place] :: messages.drop (place + 1) := by
      rw [List.getElem_cons_drop, List.take_append_drop]
    have hread : ∀ m ∈ messages.take place, Message.decode m.encode = .ok m.reread := by
      intro m hm
      obtain ⟨j, hj, rfl⟩ := List.mem_take_iff_getElem.mp hm
      have hnot := hbefore j (by omega)
      rw [Bool.not_eq_true] at hnot
      exact Message.decode_encode_of_not_tooDeep hnot
    obtain ⟨fault, hfault⟩ := Message.decode_encode_of_tooDeep hdeep
    have herror := decodeAll_error sessionId 0 (messages.drop (place + 1)) hread hfault
    rw [← hsplit, Nat.zero_add, List.length_take, Nat.min_eq_left hlt.le] at herror
    exact ⟨_, herror⟩

/-- Only the row that was written last has the id of the session. -/
theorem Database.find?_writeSession (db : Database) (branchId : RowId) (session : Session)
    (now : Int64) :
    (db.writeSession branchId session now).sessions.rows.find? (fun s => s.id == session.id) =
      some (sessionRow branchId session now (Write.nextSaveSeq db.sessions.rows)) := by
  have hothers : (db.sessions.rows.filter fun s => s.id != session.id).find?
      (fun s => s.id == session.id) = none := by
    apply List.find?_eq_none.mpr
    intro s hs hid
    have hne := (List.mem_filter.mp hs).2
    simp_all
  show (_ ++ [sessionRow branchId session now _]).find? _ = _
  rw [List.find?_append, hothers, Option.none_or, List.find?_singleton]
  exact if_pos (beq_self_eq_true session.id)

/-- A load right after a save decodes what was written, whatever else the tables hold. -/
theorem Database.Keyed.loadSession_writeSession {db : Database} {session : Session} {scope : Scope}
    {now : Int64}
    (h : ((db.ensureScope scope).2.writeSession (db.ensureScope scope).1 session now).Keyed)
    (htables : ∀ table ∈ summaryTables, table ∉
      ((db.ensureScope scope).2.writeSession (db.ensureScope scope).1 session now).missing) :
    ((db.ensureScope scope).2.writeSession (db.ensureScope scope).1 session now).loadSession
        session.id =
      ((decodeAll session.id (columnsOf 0 session.messages)).map fun messages =>
        ⟨scope, { session with lastUpdated := now, messages := messages }⟩).mapError
          (Failure.whileReading "load_session" session.id) := by
  obtain ⟨b, hb, r, hr, hid, howner, hscope⟩ := db.exists_ensureScope scope
  -- how the branch came to be there does not matter from here on
  generalize (db.ensureScope scope).2 = there at hb hr h htables ⊢
  generalize (db.ensureScope scope).1 = branchId at hid h htables ⊢
  have hof : (there.writeSession branchId session now).scopeOf? branchId = some scope := by
    have heq := h.scopeOf?_eq hb hr howner
    rwa [hid, ← hscope] at heq
  have hfound : (there.writeSession branchId session now).findSession? session.id =
      some (sessionRow branchId session now (Write.nextSaveSeq there.sessions.rows), scope) := by
    rw [findSession?, Database.find?_writeSession, Option.bind_some]
    exact congrArg _ hof
  have htranscript : Transcript session.id 0
      ((there.writeSession branchId session now).messagesOf session.id) session.messages := by
    rw [Database.messagesOf_writeSession_self]
    exact transcript_messageRows _ _ _ _
  have hordered : (there.writeSession branchId session now).orderedMessages session.id =
      (there.writeSession branchId session now).messagesOf session.id := htranscript.mergeSort_eq
  rw [loadSession_of_found htables hfound, hordered, htranscript.mapM_columns, mapError_ok,
    ok_bind]
  rfl

theorem Database.Sound.loadSession_writeSession {db : Database} (h : db.Sound) (session : Session)
    (scope : Scope) (now : Int64) :
    ((db.ensureScope scope).2.writeSession (db.ensureScope scope).1 session now).loadSession
        session.id =
      ((decodeAll session.id (columnsOf 0 session.messages)).map fun messages =>
        ⟨scope, { session with lastUpdated := now, messages := messages }⟩).mapError
          (Failure.whileReading "load_session" session.id) := by
  have hafter :
      ((db.ensureScope scope).2.writeSession (db.ensureScope scope).1 session now).Sound :=
    ((db.ensureScope_changes scope).changes.sound h).writeSession session now
      (db.ensureScope_owner scope)
  exact hafter.keyed.loadSession_writeSession fun table _ => by simp [hafter.missing]

/-- After every run, every session is saved. A load of its id then answers the session unless a
message nests deeper than can be read; the first such message is corrupt. -/
theorem saveSession_play (path : Option String) (start : Int64) (run : List (Int64 × Operation))
    (session : Session) (scope : Scope) (now : Int64) :
    let saved := ((Store.fresh path start).play run).saveSession session scope now
    saved.1 = .ok { session with lastUpdated := now } ∧
      match session.messages.findIdx? Message.isTooDeep with
      | none => saved.2.loadSession session.id = .ok ⟨scope,
          { session with
            lastUpdated := now
            messages := session.messages.map Message.reread }⟩
      | some place => ∃ reason, saved.2.loadSession session.id =
          .error (.corruptMessage session.id place reason) := by
  obtain ⟨db, hplay, hsound⟩ := play_sound path start run
  have hload := hsound.loadSession_writeSession session scope now
  have hdecode := decodeAll_columnsOf session.id session.messages
  rw [hplay, Store.saveSession_intact hsound.toIntact]
  refine ⟨rfl, ?_⟩
  cases hplace : session.messages.findIdx? Message.isTooDeep with
  | none =>
    rw [hplace] at hdecode
    rw [hdecode] at hload
    exact hload
  | some place =>
    rw [hplace] at hdecode
    rcases hdecode with ⟨reason, hreason⟩
    rw [hreason] at hload
    exact ⟨reason, hload⟩

end Store

end SessionArchive
