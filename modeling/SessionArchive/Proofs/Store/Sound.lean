import SessionArchive.Proofs.Store.Change

/-!
# The invariant of the tables

`Sound` is what every change keeps: ids are handed out in order, keys are unique, every row has its
owner, the saves are numbered in the order of the rows, and the messages of a session are a
`Transcript`. `Changes.sound` says that changes keep it, `Store.play_sound` that every store reached
by a run of operations has it.
-/

set_option autoImplicit false

namespace SessionArchive.Store

/-- Where elements are pairwise not the same, those that are the same are one. -/
theorem eq_of_pairwise_not {α : Type} {S : α → α → Prop}
    (hsymm : ∀ a b, S a b → S b a) {l : List α} (h : l.Pairwise fun a b => ¬S a b)
    {a b : α} (ha : a ∈ l) (hb : b ∈ l) (hab : S a b) : a = b := by
  have hall := List.Pairwise.forall_of_forall_of_flip (R := fun a b => S a b → a = b)
    (fun _ _ _ => rfl) (h.imp fun hne hsame => absurd hsame hne)
    (h.imp fun hne hsame => absurd (hsymm _ _ hsame) hne)
  exact hall ha hb hab

/-- Where elements are told apart by their keys, the key of one is among those of the elements
with a property if it has the property. -/
theorem contains_map_filter {α κ : Type} [BEq κ] [LawfulBEq κ] {key : α → κ} {p : α → Bool}
    {l : List α} {a : α} (ha : a ∈ l) (hunique : ∀ b ∈ l, key b = key a → b = a) :
    ((l.filter p).map key).contains (key a) = p a := by
  rw [Bool.eq_iff_iff, List.contains_iff_mem]
  constructor
  · intro hmem
    obtain ⟨b, hb, hkey⟩ := List.mem_map.mp hmem
    obtain ⟨hb, hp⟩ := List.mem_filter.mp hb
    rw [← hunique b hb hkey]
    exact hp
  · intro hp
    exact List.mem_map_of_mem (List.mem_filter.mpr ⟨ha, hp⟩)

/-! ## Numbered tables -/

/-- The ids of the rows ascend, and none is beyond the last one that was handed out. -/
structure Table.Numbered {α : Type} (id : α → RowId) (table : Table α) : Prop where
  ascending : table.rows.Pairwise fun a b => id a < id b
  bounded : ∀ row ∈ table.rows, id row ≤ table.lastId

namespace Table.Numbered

variable {α : Type} {id : α → RowId} {table : Table α}

theorem empty : (Table.empty : Table α).Numbered id := ⟨.nil, by simp [Table.empty]⟩

theorem filter (h : table.Numbered id) (p : α → Bool) :
    (table.withRows (table.rows.filter p)).Numbered id :=
  ⟨h.ascending.filter p, fun row hrow => h.bounded row (List.mem_filter.mp hrow).1⟩

theorem add (h : table.Numbered id) {row : α} (hid : id row = table.lastId + 1) :
    (⟨table.rows ++ [row], table.lastId + 1⟩ : Table α).Numbered id := by
  constructor
  · rw [List.pairwise_append]
    refine ⟨h.ascending, List.pairwise_singleton _ _, fun a ha b hb => ?_⟩
    have hle := h.bounded a ha
    rw [List.mem_singleton.mp hb, hid]
    exact Int.lt_add_one_of_le hle
  · intro a ha
    rcases List.mem_append.mp ha with ha | ha
    · -- an id that was handed out before is below the new one
      exact Int.le_of_lt (Int.lt_add_one_of_le (h.bounded a ha))
    · rw [List.mem_singleton.mp ha]
      exact Int.le_of_eq hid

theorem nodup (h : table.Numbered id) : (table.rows.map id).Nodup :=
  List.pairwise_map.mpr (h.ascending.imp Int.ne_of_lt)

/-- Rows with one id are one row. -/
theorem eq_of_id (h : table.Numbered id) {a b : α} (ha : a ∈ table.rows) (hb : b ∈ table.rows)
    (hid : id a = id b) : a = b :=
  eq_of_pairwise_not (S := fun a b => id a = id b) (fun _ _ => Eq.symm)
    (h.ascending.imp Int.ne_of_lt) ha hb hid

end Table.Numbered

/-! ## Transcripts -/

/-- The rows hold the messages one for one, numbered from a place on. -/
inductive Transcript (sessionId : String) : Nat → List MessageRow → List Message → Prop
  | nil (sequence : Nat) : Transcript sessionId sequence [] []
  | cons (id : RowId) (sequence : Nat) (message : Message) {rows : List MessageRow}
      {messages : List Message} (rest : Transcript sessionId (sequence + 1) rows messages) :
      Transcript sessionId sequence (messageRow id sessionId sequence message :: rows)
        (message :: messages)

theorem transcript_messageRows (sessionId : String) (id : RowId) (sequence : Nat)
    (messages : List Message) :
    Transcript sessionId sequence (messageRows sessionId id sequence messages) messages := by
  induction messages generalizing id sequence with
  | nil => exact .nil sequence
  | cons message rest ih => exact .cons id sequence message (ih (id + 1) (sequence + 1))

namespace Transcript

variable {sessionId : String} {sequence : Nat} {rows : List MessageRow} {messages : List Message}

theorem sequences (h : Transcript sessionId sequence rows messages) :
    rows.map MessageRow.sequence =
      (List.range' sequence rows.length).map fun n : Nat => Cell.integer n := by
  induction h with
  | nil => rfl
  | cons id sequence message rest ih =>
    rw [List.map_cons, ih, List.length_cons, List.range'_succ]
    rfl

/-- Along a transcript the places ascend. -/
theorem ascending (h : Transcript sessionId sequence rows messages) :
    rows.Pairwise fun a b =>
      ∃ m n : Nat, a.sequence = .integer m ∧ b.sequence = .integer n ∧ m < n := by
  have hplaces : (List.range' sequence rows.length).Pairwise (· < ·) := List.pairwise_lt_range'
  have hsequences : (rows.map MessageRow.sequence).Pairwise fun a b =>
      ∃ m n : Nat, a = .integer m ∧ b = .integer n ∧ m < n := by
    rw [h.sequences, List.pairwise_map]
    exact hplaces.imp fun {m n} hlt => ⟨m, n, rfl, rfl, hlt⟩
  exact List.pairwise_map.mp hsequences

theorem exists_of_mem (h : Transcript sessionId sequence rows messages) {row : MessageRow}
    (hrow : row ∈ rows) : ∃ id place message, row = messageRow id sessionId place message := by
  induction h with
  | nil => cases hrow
  | cons id place message rest ih =>
    rcases List.mem_cons.mp hrow with rfl | hrow
    · exact ⟨id, place, message, rfl⟩
    · exact ih hrow

end Transcript

theorem messageRows_sessionId {sessionId : String} {id : RowId} {sequence : Nat}
    {messages : List Message} {row : MessageRow}
    (hrow : row ∈ messageRows sessionId id sequence messages) : row.sessionId = sessionId := by
  have htranscript := transcript_messageRows sessionId id sequence messages
  obtain ⟨_, _, _, rfl⟩ := htranscript.exists_of_mem hrow
  rfl

/-- The rows of messages take the next ids in order. -/
theorem numbered_messageRows {table : Table MessageRow} (h : table.Numbered MessageRow.id)
    (sessionId : String) (sequence : Nat) (messages : List Message) :
    (⟨table.rows ++ messageRows sessionId (table.lastId + 1) sequence messages,
      table.lastId + messages.length⟩ : Table MessageRow).Numbered MessageRow.id := by
  induction messages generalizing table sequence with
  | nil => simpa [messageRows] using h
  | cons message rest ih =>
    let row := messageRow (table.lastId + 1) sessionId sequence message
    have hid : row.id = table.lastId + 1 := rfl
    have hfirst := h.add hid
    have hlast : table.lastId + 1 + rest.length = table.lastId + (rest.length + 1 : Nat) := by grind
    have hrest := ih hfirst (sequence + 1)
    -- the table with the first row has the others appended to it
    rw [List.append_assoc] at hrest
    dsimp only at hrest
    rw [hlast] at hrest
    exact hrest

/-! ## Saves -/

theorem le_foldl_max (numbers : List Int) (start : Int) :
    start ≤ numbers.foldl max start ∧ ∀ n ∈ numbers, n ≤ numbers.foldl max start := by
  induction numbers generalizing start with
  | nil => simp
  | cons first rest ih =>
    obtain ⟨hstart, hrest⟩ := ih (max start first)
    rw [List.foldl_cons]
    refine ⟨by omega, fun n hn => ?_⟩
    rcases List.mem_cons.mp hn with rfl | hn
    · omega
    · exact hrest n hn

theorem lt_nextSaveSeq {rows : List SessionRow} {row : SessionRow} (hrow : row ∈ rows) :
    row.saveSeq < Write.nextSaveSeq rows :=
  Int.lt_add_one_of_le ((le_foldl_max (rows.map SessionRow.saveSeq) 0).2 _
    (List.mem_map_of_mem hrow))

theorem one_le_nextSaveSeq (rows : List SessionRow) : 1 ≤ Write.nextSaveSeq rows := by
  have hle := (le_foldl_max (rows.map SessionRow.saveSeq) 0).1
  simp only [Write.nextSaveSeq]
  omega

/-! ## The invariant -/

namespace Database

/-- What every change of a database keeps. -/
structure Sound (db : Database) : Prop extends db.Intact where
  repositoryIds : db.repositories.Numbered Repository.id
  branchIds : db.branches.Numbered Branch.id
  messageIds : db.messages.Numbered MessageRow.id
  entryIds : ∀ kind, (db.history kind).Numbered HistoryEntry.id
  repositoryKeys : db.repositories.rows.Pairwise fun a b =>
    ¬(a.host = b.host ∧ a.org = b.org ∧ a.project = b.project)
  branchKeys : db.branches.rows.Pairwise fun a b =>
    ¬(a.repositoryId = b.repositoryId ∧ a.name = b.name)
  sessionIds : db.sessions.rows.Pairwise fun a b => a.id ≠ b.id
  saves : db.sessions.rows.Pairwise fun a b => a.saveSeq < b.saveSeq
  one_le_save : ∀ s ∈ db.sessions.rows, 1 ≤ s.saveSeq
  branchOwner : ∀ b ∈ db.branches.rows, ∃ r ∈ db.repositories.rows, r.id = b.repositoryId
  sessionOwner : ∀ s ∈ db.sessions.rows, ∃ b ∈ db.branches.rows, b.id = s.branchId
  entryOwner : ∀ kind, ∀ e ∈ (db.history kind).rows, ∃ b ∈ db.branches.rows, b.id = e.branchId
  messageOwner : ∀ m ∈ db.messages.rows, ∃ s ∈ db.sessions.rows, s.id = m.sessionId
  transcripts : ∀ s ∈ db.sessions.rows, ∃ messages,
    Transcript s.id 0 (db.messagesOf s.id) messages

theorem sound_new (now : Int64) : (Database.new now).Sound := by
  refine ⟨⟨rfl, rfl⟩, .empty, .empty, .empty, ?_, .nil, .nil, .nil, .nil, ?_, ?_, ?_, ?_, ?_, ?_⟩
  · intro kind
    cases kind <;> exact .empty
  · simp [new, Table.empty]
  · simp [new, Table.empty]
  · simp [new, Table.empty]
  · intro kind
    cases kind <;> simp [new, history, Table.empty]
  · simp [new, Table.empty]
  · simp [new, Table.empty]

namespace Sound

variable {db : Database}

/-! ## What is unique -/

theorem session_eq (h : db.Sound) {s t : SessionRow} (hs : s ∈ db.sessions.rows)
    (ht : t ∈ db.sessions.rows) (hid : s.id = t.id) : s = t :=
  eq_of_pairwise_not (S := fun a b => a.id = b.id) (fun _ _ => Eq.symm) h.sessionIds hs ht hid

/-! ## Additions keep the invariant -/

theorem addRepository (h : db.Sound) {host org project : String}
    (hkey : db.findRepository? host org project = none) :
    (db.addRepository host org project).Sound :=
  { h with
    toIntact := ⟨h.missing, h.rejections⟩
    repositoryIds := h.repositoryIds.add rfl
    repositoryKeys := by
      refine List.pairwise_append.mpr ⟨h.repositoryKeys, List.pairwise_singleton _ _, ?_⟩
      intro r hr new hnew
      rw [List.mem_singleton.mp hnew]
      simpa [and_assoc] using List.find?_eq_none.mp hkey r hr
    branchOwner := by
      intro b hb
      obtain ⟨r, hr, hid⟩ := h.branchOwner b hb
      exact ⟨r, List.mem_append_left _ hr, hid⟩ }

theorem addBranch (h : db.Sound) {repositoryId : RowId} {name : String}
    (howner : ∃ r ∈ db.repositories.rows, r.id = repositoryId)
    (hkey : db.findBranch? repositoryId name = none) : (db.addBranch repositoryId name).Sound :=
  { h with
    toIntact := ⟨h.missing, h.rejections⟩
    branchIds := h.branchIds.add rfl
    branchKeys := by
      refine List.pairwise_append.mpr ⟨h.branchKeys, List.pairwise_singleton _ _, ?_⟩
      intro b hb new hnew
      rw [List.mem_singleton.mp hnew]
      simpa using List.find?_eq_none.mp hkey b hb
    branchOwner := by
      intro b hb
      rcases List.mem_append.mp hb with hb | hb
      · exact h.branchOwner b hb
      · rw [List.mem_singleton.mp hb]
        exact howner
    sessionOwner := by
      intro s hs
      obtain ⟨b, hb, hid⟩ := h.sessionOwner s hs
      exact ⟨b, List.mem_append_left _ hb, hid⟩
    entryOwner := by
      intro kind e he
      obtain ⟨b, hb, hid⟩ := h.entryOwner kind e he
      exact ⟨b, List.mem_append_left _ hb, hid⟩ }

end Sound

/-- The entries of a stream after another one was set, or this one. -/
theorem history_setHistory (db : Database) (kind other : HistoryKind)
    (table : Table HistoryEntry) :
    (db.setHistory kind table).history other =
      if other = kind then table else db.history other := by
  cases kind <;> cases other <;> rfl

/-- What a stream holds concerns the streams alone. -/
theorem Sound.setHistory {db : Database} (h : db.Sound) (kind : HistoryKind)
    {table : Table HistoryEntry} (hids : table.Numbered HistoryEntry.id)
    (howner : ∀ e ∈ table.rows, ∃ b ∈ db.branches.rows, b.id = e.branchId) :
    (db.setHistory kind table).Sound := by
  have hentryIds : ∀ other, ((db.setHistory kind table).history other).Numbered
      HistoryEntry.id := by
    intro other
    rw [history_setHistory]
    split
    · exact hids
    · exact h.entryIds other
  have hentryOwner : ∀ other, ∀ e ∈ ((db.setHistory kind table).history other).rows,
      ∃ b ∈ db.branches.rows, b.id = e.branchId := by
    intro other
    rw [history_setHistory]
    split
    · exact howner
    · exact h.entryOwner other
  cases kind with
  | prompt =>
    exact { h with
      toIntact := ⟨h.missing, h.rejections⟩
      entryIds := hentryIds
      entryOwner := hentryOwner }
  | command =>
    exact { h with
      toIntact := ⟨h.missing, h.rejections⟩
      entryIds := hentryIds
      entryOwner := hentryOwner }

namespace Sound

variable {db : Database}

theorem addEntry (h : db.Sound) (kind : HistoryKind) {branchId : RowId} (text : String)
    (now : Int64) (howner : ∃ b ∈ db.branches.rows, b.id = branchId) :
    (db.addEntry kind branchId text now).Sound := by
  apply h.setHistory kind ((h.entryIds kind).add rfl)
  intro e he
  rcases List.mem_append.mp he with he | he
  · exact h.entryOwner kind e he
  · rw [List.mem_singleton.mp he]
    exact howner

theorem removeHistory (h : db.Sound) (kind : HistoryKind) (p : HistoryEntry → Bool) :
    (db.removeHistory kind p).Sound :=
  h.setHistory kind ((h.entryIds kind).filter _) fun e he =>
    h.entryOwner kind e (List.mem_filter.mp he).1

end Sound

/-! ## Writing a session keeps the invariant -/

section WriteSession

variable (db : Database) (branchId : RowId) (session : Session) (now : Int64)

theorem writeSession_messages :
    (db.writeSession branchId session now).messages =
      ⟨(db.messages.rows.filter fun m => !(m.sessionId == session.id)) ++
        messageRows session.id (db.messages.lastId + 1) 0 session.messages,
        db.messages.lastId + session.messages.length⟩ := rfl

/-- The session that is written has the messages that it is written with, and no others. -/
theorem messagesOf_writeSession_self :
    (db.writeSession branchId session now).messagesOf session.id =
      messageRows session.id (db.messages.lastId + 1) 0 session.messages := by
  have hnew : (messageRows session.id (db.messages.lastId + 1) 0 session.messages).filter
      (fun m => m.sessionId == session.id) =
      messageRows session.id (db.messages.lastId + 1) 0 session.messages :=
    List.filter_eq_self.mpr fun m hm => beq_iff_eq.mpr (messageRows_sessionId hm)
  rw [messagesOf, writeSession_messages, List.filter_append, List.filter_filter, hnew]
  simp

theorem messagesOf_writeSession_of_ne {id : String} (hne : id ≠ session.id) :
    (db.writeSession branchId session now).messagesOf id = db.messagesOf id := by
  have hnew : (messageRows session.id (db.messages.lastId + 1) 0 session.messages).filter
      (fun m => m.sessionId == id) = [] := by
    refine List.filter_eq_nil_iff.mpr fun m hm hid => hne ?_
    rw [← beq_iff_eq.mp hid, messageRows_sessionId hm]
  rw [messagesOf, writeSession_messages, List.filter_append, List.filter_filter, hnew,
    List.append_nil]
  apply List.filter_congr
  intro m _
  by_cases hid : m.sessionId = id
  · simp [hid, hne]
  · simp [hid]

theorem mem_otherSessions {s : SessionRow}
    (hs : s ∈ db.sessions.rows.filter fun s => s.id != session.id) :
    s ∈ db.sessions.rows ∧ s.id ≠ session.id := by
  simpa using List.mem_filter.mp hs

/-- After the write a row is an old one of another session, or the new one. -/
theorem mem_writeSession {s : SessionRow}
    (hs : s ∈ (db.writeSession branchId session now).sessions.rows) :
    (s ∈ db.sessions.rows ∧ s.id ≠ session.id) ∨
      s = sessionRow branchId session now (Write.nextSaveSeq db.sessions.rows) := by
  rcases List.mem_append.mp hs with hs | hs
  · exact .inl (mem_otherSessions db session hs)
  · exact .inr (List.mem_singleton.mp hs)

end WriteSession

/-- No message is left without its session by a write. -/
theorem Sound.messageOwner_writeSession {db : Database} (h : db.Sound) (branchId : RowId)
    (session : Session) (now : Int64) {m : MessageRow}
    (hm : m ∈ (db.writeSession branchId session now).messages.rows) :
    ∃ s ∈ (db.writeSession branchId session now).sessions.rows, s.id = m.sessionId := by
  rw [writeSession_messages] at hm
  rcases List.mem_append.mp hm with hm | hm
  · -- a message that stays belongs to a session with another id, which stays too
    have hne : m.sessionId ≠ session.id := by simpa using (List.mem_filter.mp hm).2
    obtain ⟨s, hs, hid⟩ := h.messageOwner m (List.mem_filter.mp hm).1
    refine ⟨s, List.mem_append_left _ (List.mem_filter.mpr ⟨hs, ?_⟩), hid⟩
    simpa [hid] using hne
  · exact ⟨_, List.mem_append_right _ (List.mem_singleton_self _),
      (messageRows_sessionId hm).symm⟩

theorem Sound.writeSession {db : Database} (h : db.Sound) {branchId : RowId} (session : Session)
    (now : Int64) (howner : ∃ b ∈ db.branches.rows, b.id = branchId) :
    (db.writeSession branchId session now).Sound :=
  { h with
    toIntact := ⟨h.missing, h.rejections⟩
    messageIds := numbered_messageRows (h.messageIds.filter _) session.id 0 session.messages
    entryIds := h.entryIds
    entryOwner := h.entryOwner
    sessionIds := by
      refine List.pairwise_append.mpr ⟨h.sessionIds.filter _, List.pairwise_singleton _ _, ?_⟩
      intro s hs new hnew
      rw [List.mem_singleton.mp hnew]
      exact (mem_otherSessions db session hs).2
    saves := by
      refine List.pairwise_append.mpr ⟨h.saves.filter _, List.pairwise_singleton _ _, ?_⟩
      intro s hs new hnew
      rw [List.mem_singleton.mp hnew]
      -- the number is taken beyond all rows, also the one that is replaced
      exact lt_nextSaveSeq (mem_otherSessions db session hs).1
    one_le_save := by
      intro s hs
      rcases mem_writeSession db branchId session now hs with ⟨hs, _⟩ | rfl
      · exact h.one_le_save s hs
      · exact one_le_nextSaveSeq _
    sessionOwner := by
      intro s hs
      rcases mem_writeSession db branchId session now hs with ⟨hs, _⟩ | rfl
      · exact h.sessionOwner s hs
      · exact howner
    messageOwner := fun m hm => h.messageOwner_writeSession branchId session now hm
    transcripts := by
      intro s hs
      rcases mem_writeSession db branchId session now hs with ⟨hs, hne⟩ | rfl
      · -- the messages of other sessions stay as they are
        rw [messagesOf_writeSession_of_ne db branchId session now hne]
        exact h.transcripts s hs
      · refine ⟨session.messages, ?_⟩
        show Transcript session.id 0 (messagesOf _ session.id) _
        rw [messagesOf_writeSession_self]
        exact transcript_messageRows _ _ _ _ }

/-! ## Removals keep the invariant -/

namespace Sound

variable {db : Database}

/-- A session's id is among those of the removed ones if its row is removed. -/
theorem contains_removed (h : db.Sound) {p : SessionRow → Bool} {s : SessionRow}
    (hs : s ∈ db.sessions.rows) :
    ((db.sessions.rows.filter p).map SessionRow.id).contains s.id = p s :=
  contains_map_filter hs fun _ ht hid => h.session_eq ht hs hid

theorem messagesOf_removeSessions (h : db.Sound) {p : SessionRow → Bool} {s : SessionRow}
    (hs : s ∈ db.sessions.rows) (hp : p s = false) :
    (db.removeSessions p).messagesOf s.id = db.messagesOf s.id := by
  show ((db.messages.rows.filter _).filter _) = _
  rw [List.filter_filter]
  apply List.filter_congr
  intro m _
  by_cases hid : m.sessionId = s.id
  · -- the session is not among the removed ones, so its messages are not either
    rw [hid, h.contains_removed hs, hp]
    simp
  · simp [hid]

theorem removeSessions (h : db.Sound) (p : SessionRow → Bool) : (db.removeSessions p).Sound :=
  { h with
    toIntact := ⟨h.missing, h.rejections⟩
    messageIds := h.messageIds.filter _
    entryIds := h.entryIds
    entryOwner := h.entryOwner
    sessionIds := h.sessionIds.filter _
    saves := h.saves.filter _
    one_le_save := fun s hs => h.one_le_save s (List.mem_filter.mp hs).1
    sessionOwner := fun s hs => h.sessionOwner s (List.mem_filter.mp hs).1
    messageOwner := by
      intro m hm
      obtain ⟨hm, hstays⟩ := List.mem_filter.mp hm
      obtain ⟨s, hs, hid⟩ := h.messageOwner m hm
      -- a message that stays was not of a removed session
      rw [← hid, h.contains_removed hs] at hstays
      exact ⟨s, List.mem_filter.mpr ⟨hs, hstays⟩, hid⟩
    transcripts := by
      intro s hs
      obtain ⟨hs, hp⟩ := List.mem_filter.mp hs
      rw [h.messagesOf_removeSessions hs (by simpa using hp)]
      exact h.transcripts s hs }

/-- What a row belongs to stays, where the row stays because its owner is not removed. -/
theorem owner_stays {α : Type} {id : α → RowId} {rows : List α} {p : α → Bool} {owner : RowId}
    (hstays : (!((rows.filter p).map id).contains owner) = true)
    (h : ∃ row ∈ rows, id row = owner) : ∃ row ∈ rows.filter (!p ·), id row = owner := by
  rcases h with ⟨row, hrow, rfl⟩
  refine ⟨row, List.mem_filter.mpr ⟨hrow, ?_⟩, rfl⟩
  by_cases hp : p row = true
  · -- then the row would have gone with its owner
    have hmem : id row ∈ (rows.filter p).map id :=
      List.mem_map_of_mem (List.mem_filter.mpr ⟨hrow, hp⟩)
    simp [hmem] at hstays
  · simpa using hp

theorem removeBranches (h : db.Sound) (p : Branch → Bool) : (db.removeBranches p).Sound := by
  -- the sessions of the branches go first, and their messages with them
  have hsessions := h.removeSessions fun s =>
    ((db.branches.rows.filter p).map Branch.id).contains s.branchId
  have howner : ∀ kind, ∀ e ∈ ((db.removeBranches p).history kind).rows,
      ∃ b ∈ (db.removeBranches p).branches.rows, b.id = e.branchId := by
    intro kind e he
    have hmem : e ∈ (db.history kind).rows ∧
        (!((db.branches.rows.filter p).map Branch.id).contains e.branchId) = true := by
      cases kind <;> exact List.mem_filter.mp he
    exact owner_stays hmem.2 (h.entryOwner kind e hmem.1)
  exact { hsessions with
    toIntact := ⟨h.missing, h.rejections⟩
    branchIds := h.branchIds.filter _
    branchKeys := h.branchKeys.filter _
    branchOwner := fun b hb => h.branchOwner b (List.mem_filter.mp hb).1
    entryIds := by
      intro kind
      cases kind with
      | prompt => exact (h.entryIds .prompt).filter _
      | command => exact (h.entryIds .command).filter _
    entryOwner := howner
    sessionOwner := by
      intro s hs
      obtain ⟨hs, hstays⟩ := List.mem_filter.mp hs
      exact owner_stays hstays (h.sessionOwner s hs) }

theorem removeRepositories (h : db.Sound) (p : Repository → Bool) :
    (db.removeRepositories p).Sound := by
  -- the cascade goes through the branches
  have hbranches := h.removeBranches fun b =>
    ((db.repositories.rows.filter p).map Repository.id).contains b.repositoryId
  exact { hbranches with
    toIntact := ⟨h.missing, h.rejections⟩
    repositoryIds := h.repositoryIds.filter _
    repositoryKeys := h.repositoryKeys.filter _
    entryIds := hbranches.entryIds
    entryOwner := hbranches.entryOwner
    branchOwner := by
      intro b hb
      obtain ⟨hb, hstays⟩ := List.mem_filter.mp hb
      exact owner_stays hstays (h.branchOwner b hb) }

end Sound

end Database

/-! ## Runs keep the invariant -/

theorem SideChange.sound {db after : Database} (hchange : SideChange db after) (h : db.Sound) :
    after.Sound := by
  cases hchange with
  | addRepository host org project hkey => exact h.addRepository hkey
  | addBranch repositoryId name howner hkey => exact h.addBranch howner hkey
  | addEntry kind branchId text now howner => exact h.addEntry kind text now howner
  | removeHistory kind p => exact h.removeHistory kind p

theorem Change.sound {db after : Database} (hchange : Change db after) (h : db.Sound) :
    after.Sound := by
  cases hchange with
  | side hside => exact hside.sound h
  | writeSession branchId session now howner => exact h.writeSession session now howner
  | removeRepositories p => exact h.removeRepositories p
  | removeBranches p => exact h.removeBranches p
  | removeSessions p => exact h.removeSessions p

theorem Changes.sound {db after : Database} (hchanges : Changes db after) (h : db.Sound) :
    after.Sound := by
  induction hchanges with
  | refl => exact h
  | tail _ hchange ih => exact hchange.sound ih

/-- Every store that a run reaches has the invariant. -/
theorem play_sound (path : Option String) (start : Int64) (run : List (Int64 × Operation)) :
    ∃ db, (Store.fresh path start).play run = ⟨path, some db⟩ ∧ db.Sound := by
  refine Store.play_induction (motive := fun store => ∃ db, store = ⟨path, some db⟩ ∧ db.Sound)
    (Store.fresh path start) ⟨_, rfl, Database.sound_new start⟩ ?_ run
  rintro store now operation ⟨db, rfl, h⟩
  obtain ⟨after, hrun, hchanges⟩ := operation.run_changes h.toIntact path now
  exact ⟨after, hrun, hchanges.sound h⟩

end SessionArchive.Store
