import SessionArchive.Proofs.Store.Listing
import SessionArchive.Proofs.Store.Stream

/-!
# Numbers that no answer depends on

The numbers of the saves and the ids of the messages put rows in order and are not shown. A
`Renumbering` gives rows other numbers in the same order, and every query answers the same after it:
`Renumbering.answer_eq`. To save a session again at the time of the last save is to renumber its
rows, so that `saveSession_twice` holds after every run.
-/

set_option autoImplicit false

namespace SessionArchive.Store

/-- Other numbers for the saves and the messages of a database, in the order of the numbers that are
there. -/
structure Renumbering (db : Database) where
  save : SessionRow → Int
  id : MessageRow → RowId
  lastId : RowId
  save_le : ∀ a ∈ db.sessions.rows, ∀ b ∈ db.sessions.rows,
    save a ≤ save b ↔ a.saveSeq ≤ b.saveSeq
  id_le : ∀ a ∈ db.messages.rows, ∀ b ∈ db.messages.rows, id a ≤ id b ↔ a.id ≤ b.id

namespace Renumbering

variable {db : Database} (numbers : Renumbering db)

/-- A session under its other number. -/
def session (row : SessionRow) : SessionRow := { row with saveSeq := numbers.save row }

/-- A message under its other id. -/
def message (row : MessageRow) : MessageRow := { row with id := numbers.id row }

/-- The database under the other numbers. -/
def database : Database :=
  { db with
    sessions := db.sessions.withRows (db.sessions.rows.map numbers.session)
    messages := ⟨db.messages.rows.map numbers.message, numbers.lastId⟩ }

/-! ## What is put in order -/

theorem messagesOf_eq (sessionId : String) :
    numbers.database.messagesOf sessionId = (db.messagesOf sessionId).map numbers.message := by
  rw [Database.messagesOf, database, List.filter_map]
  rfl

theorem orderedMessages_eq (sessionId : String) :
    numbers.database.orderedMessages sessionId =
      (db.orderedMessages sessionId).map numbers.message := by
  rw [Database.orderedMessages, messagesOf_eq]
  refine (List.map_mergeSort fun a _ b _ => ?_).symm
  rfl

theorem byRecency_eq :
    Database.byRecency numbers.database.sessions.rows =
      (Database.byRecency db.sessions.rows).map numbers.session := by
  refine (List.map_mergeSort fun a ha b hb => ?_).symm
  have hsave : decide (numbers.save b ≤ numbers.save a) = decide (b.saveSeq ≤ a.saveSeq) :=
    decide_eq_decide.mpr (numbers.save_le b hb a ha)
  show _ = (_ || _ && decide (numbers.save b ≤ numbers.save a))
  rw [hsave]
  rfl

theorem searchOrder_eq :
    numbers.database.searchOrder = db.searchOrder.map numbers.message := by
  refine (List.map_mergeSort fun a ha b hb => ?_).symm
  have hid : decide (numbers.id b ≤ numbers.id a) = decide (b.id ≤ a.id) :=
    decide_eq_decide.mpr (numbers.id_le b hb a ha)
  show _ = (_ || _ && decide (numbers.id b ≤ numbers.id a))
  rw [hid]
  rfl

/-! ## What is read -/

theorem requireAll_eq (tables : List TableName) :
    numbers.database.requireAll tables = db.requireAll tables := by
  induction tables with
  | nil => rfl
  | cons table rest ih =>
    rw [Database.requireAll, Database.requireAll, ih]
    rfl

theorem findSession?_eq (id : String) :
    numbers.database.findSession? id =
      (db.findSession? id).map fun found => (numbers.session found.1, found.2) := by
  have hrow : numbers.database.sessions.rows.find? (fun s => s.id == id) =
      (db.sessions.rows.find? fun s => s.id == id).map numbers.session := List.find?_map ..
  rw [Database.findSession?, Database.findSession?, hrow]
  cases db.sessions.rows.find? fun s => s.id == id with
  | none => rfl
  | some row =>
    simp only [Option.map_some, Option.bind_some, Option.map_map]
    rfl

theorem loadSession_eq (id : String) : numbers.database.loadSession id = db.loadSession id := by
  have hcolumns : (numbers.database.orderedMessages id).mapM MessageRow.columns =
      (db.orderedMessages id).mapM MessageRow.columns := by
    rw [orderedMessages_eq, List.mapM_map]
    rfl
  simp only [Database.loadSession, Database.read, requireAll_eq, findSession?_eq, hcolumns]
  cases db.findSession? id with
  | none => rfl
  | some found => rfl

theorem summaries_eq : numbers.database.summaries = db.summaries := by
  have hsummary : ∀ row, numbers.database.summary? (numbers.session row) = db.summary? row := by
    intro row
    have hlength : (numbers.database.messagesOf row.id).length = (db.messagesOf row.id).length := by
      rw [messagesOf_eq, List.length_map]
    simp only [Database.summary?, session, hlength]
    rfl
  rw [Database.summaries, byRecency_eq, List.filterMap_map]
  exact congrArg (List.filterMap · _) (funext hsummary)

theorem scan_eq (find : Matcher) (wanted : Option Nat) (rows : List MessageRow) :
    scan find wanted (rows.map numbers.message) = scan find wanted rows := by
  induction rows generalizing wanted with
  | nil => rfl
  | cons row rest ih =>
    have hrow : scanRow find (numbers.message row) = scanRow find row := rfl
    rw [List.map_cons, scan, scan, hrow]
    simp only [ih]

theorem listSessions_eq (scope : Scope) (limit : Nat) :
    numbers.database.listSessions scope limit = db.listSessions scope limit := by
  simp only [Database.listSessions, Database.read, requireAll_eq, Database.summariesIn_eq,
    summaries_eq]

theorem listAllSessions_eq (limit : Nat) :
    numbers.database.listAllSessions limit = db.listAllSessions limit := by
  simp only [Database.listAllSessions, Database.read, requireAll_eq, summaries_eq]

theorem searchMessages_eq (pattern : String) (find : Matcher) (limit : Nat) :
    numbers.database.searchMessages pattern find limit = db.searchMessages pattern find limit := by
  simp only [Database.searchMessages, Database.read, requireAll_eq, searchOrder_eq, scan_eq]

theorem stats_eq : numbers.database.stats = db.stats := by
  simp only [Database.stats, requireAll_eq]
  simp only [database, Table.withRows, List.length_map]

/-- The numbers are shown by no answer. -/
theorem answer_eq (path : Option String) (query : Query) :
    query.answer ⟨path, some numbers.database⟩ = query.answer ⟨path, some db⟩ := by
  cases query with
  | getRepository host org project => rfl
  | getBranch repositoryId name => rfl
  | findScope scope => rfl
  | listRepositories => rfl
  | listBranches repositoryId => rfl
  | loadSession id => exact numbers.loadSession_eq id
  | listSessions scope limit => exact numbers.listSessions_eq scope limit
  | listAllSessions limit => exact numbers.listAllSessions_eq limit
  | searchMessages pattern limit =>
    simp only [Query.answer, Store.searchMessages, searchMessagesBy, searchScannedBy, Store.query,
      searchMessages_eq]
    rfl
  | loadHistory kind scope limit => rfl
  | stats => exact numbers.stats_eq
  | schemaVersion => rfl
  | compact => rfl

end Renumbering

/-! ## Saving again -/

theorem map_messageRows (sessionId : String) (id : RowId) (sequence : Nat)
    (messages : List Message) (shift : Int) :
    (messageRows sessionId id sequence messages).map (fun m => { m with id := m.id + shift }) =
      messageRows sessionId (id + shift) sequence messages := by
  induction messages generalizing id sequence with
  | nil => rfl
  | cons message rest ih =>
    have hnext : id + 1 + shift = id + shift + 1 := Int.add_right_comm id 1 shift
    rw [messageRows, messageRows, List.map_cons, ih, hnext]
    rfl

section WriteSession

variable {db : Database} {branchId : RowId} {session : Session} {now : Int64}

/-- Of the saves the one of the session that was written is the last. -/
theorem saveSeq_lt_writeSession {row other : SessionRow}
    (hrow : row ∈ (db.writeSession branchId session now).sessions.rows)
    (hother : other ∈ (db.writeSession branchId session now).sessions.rows)
    (hid : row.id = session.id) (hne : other.id ≠ session.id) : other.saveSeq < row.saveSeq := by
  rcases Database.mem_writeSession db branchId session now hrow with ⟨_, hrow⟩ | rfl
  · exact absurd hid hrow
  · rcases Database.mem_writeSession db branchId session now hother with ⟨hthere, _⟩ | rfl
    · exact lt_nextSaveSeq hthere
    · exact absurd rfl hne

/-- The messages of the session that was written come last. -/
theorem Database.Sound.id_lt_writeSession (h : (db.writeSession branchId session now).Sound)
    {row other : MessageRow} (hrow : row ∈ (db.writeSession branchId session now).messages.rows)
    (hother : other ∈ (db.writeSession branchId session now).messages.rows)
    (hsession : row.sessionId = session.id) (hne : other.sessionId ≠ session.id) :
    other.id < row.id := by
  have hascending := h.messageIds.ascending
  rw [writeSession_messages] at hascending hrow hother
  obtain ⟨_, _, hbetween⟩ := List.pairwise_append.mp hascending
  apply hbetween
  · rcases List.mem_append.mp hother with hmem | hmem
    · exact hmem
    · exact absurd (messageRows_sessionId hmem) hne
  · rcases List.mem_append.mp hrow with hmem | hmem
    · exact absurd hsession (by simpa using (List.mem_filter.mp hmem).2)
    · exact hmem

/-- To write a session again is to renumber its rows. -/
def Renumbering.again (h : (db.writeSession branchId session now).Sound) :
    Renumbering (db.writeSession branchId session now) where
  save row :=
    if row.id = session.id then
      Write.nextSaveSeq (db.writeSession branchId session now).sessions.rows
    else row.saveSeq
  id row :=
    if row.sessionId = session.id then row.id + session.messages.length else row.id
  lastId := (db.writeSession branchId session now).messages.lastId + session.messages.length
  save_le := by
    intro a ha b hb
    by_cases hfirst : a.id = session.id
    · by_cases hsecond : b.id = session.id
      · -- the session has one row
        rw [h.session_eq ha hb (hfirst.trans hsecond.symm)]
        exact iff_of_true (Int.le_refl _) (Int.le_refl _)
      · have hlt := saveSeq_lt_writeSession ha hb hfirst hsecond
        rw [if_pos hfirst, if_neg hsecond]
        exact iff_of_false (Int.not_le.mpr (lt_nextSaveSeq hb)) (Int.not_le.mpr hlt)
    · by_cases hsecond : b.id = session.id
      · have hlt := saveSeq_lt_writeSession hb ha hsecond hfirst
        rw [if_neg hfirst, if_pos hsecond]
        exact iff_of_true (Int.le_of_lt (lt_nextSaveSeq ha)) (Int.le_of_lt hlt)
      · rw [if_neg hfirst, if_neg hsecond]
  id_le := by
    intro a ha b hb
    have hmore : ∀ row : MessageRow, row.id ≤ row.id + session.messages.length := fun row =>
      Int.le_add_of_nonneg_right (Int.natCast_nonneg _)
    by_cases hfirst : a.sessionId = session.id
    · by_cases hsecond : b.sessionId = session.id
      · rw [if_pos hfirst, if_pos hsecond]
        exact Int.add_le_add_iff_right _
      · have hlt := h.id_lt_writeSession ha hb hfirst hsecond
        rw [if_pos hfirst, if_neg hsecond]
        exact iff_of_false (Int.not_le.mpr (Int.lt_of_lt_of_le hlt (hmore a))) (Int.not_le.mpr hlt)
    · by_cases hsecond : b.sessionId = session.id
      · have hle := Int.le_of_lt (h.id_lt_writeSession hb ha hsecond hfirst)
        rw [if_neg hfirst, if_pos hsecond]
        exact iff_of_true (Int.le_trans hle (hmore b)) hle
      · rw [if_neg hfirst, if_neg hsecond]

variable (h : (db.writeSession branchId session now).Sound)

/-- The row of the session goes and comes back as the last one, which it was. -/
theorem sessions_again :
    (db.writeSession branchId session now).sessions.rows.map (Renumbering.again h).session =
      ((db.writeSession branchId session now).sessions.rows.filter fun s => s.id != session.id) ++
        [sessionRow branchId session now
          (Write.nextSaveSeq (db.writeSession branchId session now).sessions.rows)] := by
  let others := db.sessions.rows.filter fun s => s.id != session.id
  let row := sessionRow branchId session now (Write.nextSaveSeq db.sessions.rows)
  have hrows : (db.writeSession branchId session now).sessions.rows = others ++ [row] := rfl
  have hstay : others.map (Renumbering.again h).session = others.map id := by
    apply List.map_congr_left
    intro s hs
    have hne := (Database.mem_otherSessions db session hs).2
    simp only [Renumbering.session, Renumbering.again, if_neg hne, id]
  have hfirst : (Renumbering.again h).session row = sessionRow branchId session now
      (Write.nextSaveSeq (db.writeSession branchId session now).sessions.rows) := by
    simp only [Renumbering.session, Renumbering.again, row, sessionRow, if_pos]
  have hothers : (others ++ [row]).filter (fun s => s.id != session.id) = others := by
    simp [others, row, sessionRow, List.filter_append]
  rw [← hfirst]
  generalize (Renumbering.again h).session = renumber at hstay hfirst ⊢
  rw [hrows, hothers, List.map_append, hstay, List.map_id]
  rfl

/-- The messages of the session go and come back as the last ones, which they were. -/
theorem messages_again :
    (db.writeSession branchId session now).messages.rows.map (Renumbering.again h).message =
      ((db.writeSession branchId session now).messages.rows.filter
        fun m => !(m.sessionId == session.id)) ++
        messageRows session.id ((db.writeSession branchId session now).messages.lastId + 1) 0
          session.messages := by
  let others := db.messages.rows.filter fun m => !(m.sessionId == session.id)
  let rows := messageRows session.id (db.messages.lastId + 1) 0 session.messages
  have hrows : (db.writeSession branchId session now).messages.rows = others ++ rows := rfl
  have hstay : others.map (Renumbering.again h).message = others.map id := by
    apply List.map_congr_left
    intro m hm
    have hne : m.sessionId ≠ session.id := by simpa using (List.mem_filter.mp hm).2
    simp only [Renumbering.message, Renumbering.again, if_neg hne, id]
  have hnew : rows.map (Renumbering.again h).message =
      messageRows session.id ((db.writeSession branchId session now).messages.lastId + 1) 0
          session.messages := by
    -- the ids go on behind those of the save before, one for each message
    have hnext : (db.writeSession branchId session now).messages.lastId + 1 =
        db.messages.lastId + 1 + session.messages.length :=
      Int.add_right_comm _ _ _
    rw [hnext, ← map_messageRows]
    apply List.map_congr_left
    intro m hm
    simp only [Renumbering.message, Renumbering.again, if_pos (messageRows_sessionId hm)]
  have hothers : (others ++ rows).filter (fun m => !(m.sessionId == session.id)) = others := by
    have hnone : rows.filter (fun m => !(m.sessionId == session.id)) = [] := by
      apply List.filter_eq_nil_iff.mpr
      intro m hm
      simp [messageRows_sessionId hm]
    rw [List.filter_append, hnone, List.append_nil, List.filter_filter]
    simp [others]
  rw [← hnew]
  generalize (Renumbering.again h).message = renumber at hstay hnew ⊢
  rw [hrows, hothers, List.map_append, hstay, List.map_id]

theorem writeSession_again (lastUpdated : Int64) :
    (db.writeSession branchId session now).writeSession branchId
        { session with lastUpdated := lastUpdated } now =
      (Renumbering.again h).database := by
  rw [Renumbering.database, sessions_again h, messages_again h]
  rfl

end WriteSession

/-- The branch of a scope that is there is not made again. -/
theorem Database.ensureScope_of_some {db : Database} {scope : Scope} {b : Branch}
    (hscope : db.findScope? scope = some b) : db.ensureScope scope = (b.id, db) := by
  obtain ⟨r, hrepository, hbranch⟩ := Option.bind_eq_some_iff.mp hscope
  simp only [ensureScope, ensureRepository, hrepository, ensureBranch, hbranch]

/-- After every run, to save a session again under one scope at the time of the last save changes no
answer: not what loads, listings and searches show and in what order, nor the counts, the entries of
the streams, or the ids of repositories and branches. The second save may take the session as it was
given or as it was answered. -/
theorem saveSession_twice (path : Option String) (start : Int64) (run : List (Int64 × Operation))
    (session : Session) (scope : Scope) (now lastUpdated : Int64) :
    let saved := { session with lastUpdated := now }
    ∃ once twice, ((Store.fresh path start).play run).saveSession session scope now =
        (.ok saved, once) ∧
      once.saveSession { session with lastUpdated := lastUpdated } scope now = (.ok saved, twice) ∧
      ∀ query : Query, query.answer twice = query.answer once := by
  obtain ⟨db, hrun, h⟩ := play_sound path start run
  obtain ⟨b, hscope, hid⟩ := h.exists_findScope?_ensureScope scope
  have hthere := (db.ensureScope_changes scope).changes.sound h
  have hfirst := Store.saveSession_intact h.toIntact path session scope now
  rw [← hid] at hfirst
  generalize (db.ensureScope scope).2 = there at hscope hthere hfirst
  have hb := (hthere.findScope?_eq_some_iff.mp hscope).1
  have hsound := hthere.writeSession session now ⟨b, hb, rfl⟩
  -- the second save finds the branch that the first one left
  have hstill : (there.writeSession b.id session now).findScope? scope = some b := hscope
  have hsecond := Store.saveSession_intact hsound.toIntact path
    { session with lastUpdated := lastUpdated } scope now
  rw [Database.ensureScope_of_some hstill, writeSession_again hsound] at hsecond
  refine ⟨_, _, ?_, hsecond, ?_⟩
  · rw [hrun, hfirst]
  · exact (Renumbering.again hsound).answer_eq path

end SessionArchive.Store
