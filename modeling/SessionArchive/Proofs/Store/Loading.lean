import SessionArchive.Proofs.Message
import SessionArchive.Proofs.Store.Lookup

/-!
# Loading a session

What `Database.loadSession` answers when the tables satisfy the invariant. It finds the row of a
session and its scope, takes the rows of its messages in order, and decodes them one by one: the
answer is the session with the messages that were written, or it names the first message that
cannot be decoded, or there is no row with the id.
-/

set_option autoImplicit false

namespace SessionArchive.Store

/-! ## Decoding a transcript -/

/-- The columns that messages are stored in, from a place on. -/
def columnsOf : Nat → List Message → List MessageColumns
  | _, [] => []
  | sequence, message :: rest =>
    ⟨sequence, message.role.name, message.encode, message.createdAt⟩ ::
      columnsOf (sequence + 1) rest

theorem columns_messageRow (id : RowId) (sessionId : String) (sequence : Nat) (message : Message) :
    (messageRow id sessionId sequence message).columns =
      .ok ⟨sequence, message.role.name, message.encode, message.createdAt⟩ := by
  simp [MessageRow.columns, messageRow, Cell.toInt, Cell.toText]

theorem Transcript.mapM_columns {sessionId : String} {sequence : Nat} {rows : List MessageRow}
    {messages : List Message} (h : Transcript sessionId sequence rows messages) :
    rows.mapM MessageRow.columns = .ok (columnsOf sequence messages) := by
  induction h with
  | nil => rfl
  | cons id sequence message rest ih =>
    rw [List.mapM_cons, columns_messageRow, ih]
    rfl

theorem isBefore_integer (m n : Int) : (Cell.integer m).isBefore (.integer n) = decide (m < n) := by
  simp [Cell.isBefore, Cell.rank, Cell.fraction]

/-- The rows of a transcript are in order already. -/
theorem Transcript.mergeSort_eq {sessionId : String} {sequence : Nat} {rows : List MessageRow}
    {messages : List Message} (h : Transcript sessionId sequence rows messages) :
    rows.mergeSort (fun a b => !b.sequence.isBefore a.sequence) = rows := by
  -- sorting leaves alone what ascends already
  refine List.mergeSort_of_pairwise (h.ascending.imp ?_)
  rintro a b ⟨m, n, hm, hn, hlt⟩
  rw [hm, hn, isBefore_integer]
  simp only [Bool.not_eq_true', decide_eq_false_iff_not]
  omega

/-- Columns give back the message whose content they hold. -/
theorem message_columns {message found : Message} (sequence : Int)
    (hdecode : Message.decode message.encode = .ok found) (hrole : found.role = message.role)
    (htime : found.createdAt = message.createdAt) :
    (⟨sequence, message.role.name, message.encode, message.createdAt⟩ : MessageColumns).message =
      .ok found := by
  -- role and time are checked against the content before the message is given out
  simp only [MessageColumns.message, hdecode, Role.ofName?_name, hrole, if_true, ← htime]
  rw [← hrole]

theorem decodeAll_ok (sessionId : String) (sequence : Nat) {messages : List Message}
    (h : ∀ m ∈ messages, Message.decode m.encode = .ok m.reread) :
    decodeAll sessionId (columnsOf sequence messages) = .ok (messages.map Message.reread) := by
  induction messages generalizing sequence with
  | nil => rfl
  | cons message rest ih =>
    obtain ⟨hfirst, hrest⟩ := List.forall_mem_cons.mp h
    rw [columnsOf, decodeAll, message_columns sequence hfirst rfl rfl, ih _ hrest]
    rfl

/-- The first message that cannot be decoded is named. -/
theorem decodeAll_error (sessionId : String) (sequence : Nat) {before : List Message}
    (after : List Message) {message : Message} {fault : Json.Fault}
    (hbefore : ∀ m ∈ before, Message.decode m.encode = .ok m.reread)
    (hmessage : Message.decode message.encode = .error fault) :
    decodeAll sessionId (columnsOf sequence (before ++ message :: after)) =
      .error (.corruptMessage sessionId (sequence + before.length : Nat)
        s!"invalid content: {fault.message message.encode.toList}") := by
  induction before generalizing sequence with
  | nil => simp [columnsOf, decodeAll, MessageColumns.message, hmessage]
  | cons first rest ih =>
    obtain ⟨hfirst, hrest⟩ := List.forall_mem_cons.mp hbefore
    rw [List.cons_append, columnsOf, decodeAll, message_columns sequence hfirst rfl rfl,
      ih _ hrest, List.length_cons, Nat.add_assoc, Nat.add_comm 1]
    rfl

/-! ## Finding the rows -/

namespace Database

variable {db : Database}

theorem Sound.findSession?_eq (h : db.Sound) {row : SessionRow} (hrow : row ∈ db.sessions.rows)
    {scope : Scope} (hscope : db.scopeOf? row.branchId = some scope) :
    db.findSession? row.id = some (row, scope) := by
  have hfind : db.sessions.rows.find? (fun s => s.id == row.id) = some row :=
    find?_eq_of_unique hrow (beq_self_eq_true _) fun s hs hid =>
      h.session_eq hs hrow (beq_iff_eq.mp hid)
  simp [findSession?, hfind, hscope]

/-! ## Loading -/

/-- A load of a row that is found reads the columns of its messages and decodes them. -/
theorem loadSession_of_found {id : String} {row : SessionRow} {scope : Scope}
    (htables : ∀ table ∈ summaryTables, table ∉ db.missing)
    (hfound : db.findSession? id = some (row, scope)) :
    db.loadSession id =
      (((db.orderedMessages id).mapM MessageRow.columns).mapError Failure.database >>=
        fun columns => (decodeAll id columns).map fun messages =>
          (⟨scope, ⟨row.id, row.createdAt, row.lastUpdated, row.firstPrompt, row.provider,
            row.model, row.workingDir, messages⟩⟩ : LoadedSession)).mapError
          (Failure.whileReading "load_session" id) := by
  -- no table that is read is missing
  have hpresent : ∀ {tables : List TableName}, tables ⊆ summaryTables →
      db.requireAll tables = .ok () := fun hsubset =>
    requireAll_of_present fun table htable => htables table (hsubset htable)
  have hfirst : db.requireAll [.sessions, .branches, .repositories] = .ok () :=
    hpresent (by decide)
  have hsecond : db.requireAll [.messages] = .ok () := hpresent (by decide)
  simp only [loadSession, read, hfirst, hsecond, ok_bind, hfound]
  cases (db.orderedMessages id).mapM MessageRow.columns with
  | error fault => rfl
  | ok columns =>
    simp only [mapError_ok, ok_bind]
    cases decodeAll id columns with
    | ok decoded => rfl
    | error failure => rfl

/-- A load decodes the transcript of the session. -/
theorem Sound.loadSession_eq (h : db.Sound) {row : SessionRow} (hrow : row ∈ db.sessions.rows)
    {scope : Scope} (hscope : db.scopeOf? row.branchId = some scope) {messages : List Message}
    (htranscript : Transcript row.id 0 (db.messagesOf row.id) messages) :
    db.loadSession row.id =
      ((decodeAll row.id (columnsOf 0 messages)).map fun messages =>
        ⟨scope, ⟨row.id, row.createdAt, row.lastUpdated, row.firstPrompt, row.provider, row.model,
          row.workingDir, messages⟩⟩).mapError (Failure.whileReading "load_session" row.id) := by
  have hordered : db.orderedMessages row.id = db.messagesOf row.id := htranscript.mergeSort_eq
  rw [loadSession_of_found (fun table _ => by simp [h.missing]) (h.findSession?_eq hrow hscope),
    hordered, htranscript.mapM_columns, mapError_ok, ok_bind]

theorem Intact.loadSession_absent (h : db.Intact) {id : String}
    (habsent : ∀ row ∈ db.sessions.rows, row.id ≠ id) :
    db.loadSession id = .error (.sessionNotFound id) := by
  have hfind : db.sessions.rows.find? (fun s => s.id == id) = none :=
    List.find?_eq_none.mpr fun row hrow hid => habsent row hrow (beq_iff_eq.mp hid)
  simp [loadSession, read, h.requireAll, findSession?, hfind, Failure.whileReading]

end Database

end SessionArchive.Store
