import SessionArchive.Proofs.Store.Latest
import SessionArchive.Proofs.Store.Recall

/-!
# What an operation removes

A session or an entry of history goes only where an operation asks for it: where it is deleted,
alone or with its branch or repository, where it is overwritten or cleared, or where a limit is put
on what is kept. `Operation.removesSession_or_has` and `Operation.removesEntry_or_mem` say so for
every operation on a sound database, and `Sound.length_entriesOf_appendHistory` that a limit is kept
to.
-/

set_option autoImplicit false

namespace SessionArchive

open Store (Database Deletion SessionRow)

/-! ## Operations that remove -/

/-- An operation deletes a branch, alone or with its repository. -/
inductive Operation.RemovesBranch (db : Database) (id : RowId) : Operation → Prop
  | itself : RemovesBranch db id (.deleteBranch id)
  | repository {b : Branch} (hb : b ∈ db.branches.rows) (hid : b.id = id) :
      RemovesBranch db id (.deleteRepository b.repositoryId)

/-- An operation may remove a session of a database. -/
inductive Operation.RemovesSession (db : Database) (s : SessionRow) : Operation → Prop
  | itself : RemovesSession db s (.deleteSession s.id)
  | branch {operation : Operation} (h : operation.RemovesBranch db s.branchId) :
      RemovesSession db s operation
  | overwritten {session : Session} {scope : Scope} (hid : session.id = s.id) :
      RemovesSession db s (.saveSession session scope)
  | limited {maxAgeDays maxSessions : Nat} (h : ¬(maxAgeDays = 0 ∧ maxSessions = 0)) :
      RemovesSession db s (.cleanupSessions maxAgeDays maxSessions)

/-- An operation may remove an entry of a stream. -/
inductive Operation.RemovesEntry (db : Database) (kind : HistoryKind) (entry : HistoryEntry) :
    Operation → Prop
  | branch {operation : Operation} (h : operation.RemovesBranch db entry.branchId) :
      RemovesEntry db kind entry operation
  | cleared {scope : Scope} {b : Branch} (hscope : db.findScope? scope = some b)
      (hid : b.id = entry.branchId) : RemovesEntry db kind entry (.clearHistory kind scope)
  | trimmed {scope : Scope} {text : String} {maxEntries : Nat} (h : maxEntries ≠ 0) :
      RemovesEntry db kind entry (.appendHistory kind scope text maxEntries)
  | expired {maxAgeDays : Nat} (h : maxAgeDays ≠ 0) :
      RemovesEntry db kind entry (.cleanupHistory maxAgeDays)

namespace Store.Database

variable {db after : Database} {s : SessionRow} {kind : HistoryKind} {entry : HistoryEntry}

/-- A session is still there, with the messages that it had. -/
structure Has (after db : Database) (s : SessionRow) : Prop where
  row : s ∈ after.sessions.rows
  messages : after.messagesOf s.id = db.messagesOf s.id

/-! ## Sessions that stay -/

theorem has_of_widens (h : Widens db after) (hs : s ∈ db.sessions.rows) : after.Has db s := by
  constructor
  · rw [h.sessions]
    exact hs
  · rw [messagesOf, h.messages, messagesOf]

theorem Sound.has_removeSessions (h : db.Sound) {p : SessionRow → Bool} (hs : s ∈ db.sessions.rows)
    (hp : p s = false) : (db.removeSessions p).Has db s := by
  constructor
  · exact List.mem_filter.mpr ⟨hs, by simp [hp]⟩
  · exact h.messagesOf_removeSessions hs hp

/-- A session that a deletion does not take is left with its messages. -/
theorem Sound.has_leaves (h : db.Sound) {deletion : Deletion} (hs : s ∈ db.sessions.rows)
    (hstays : deletion.takesSession db s = false) : (deletion.leaves db).Has db s := by
  constructor
  · exact List.mem_filter.mpr ⟨hs, by simp only [hstays, Bool.not_false]⟩
  · show (db.messages.rows.filter _).filter _ = db.messages.rows.filter _
    rw [List.filter_filter]
    apply List.filter_congr
    intro m _
    by_cases hid : m.sessionId = s.id
    · rw [hid, Deletion.takesSessionId_id h deletion hs, hstays]
      simp
    · simp [hid]

theorem has_writeSession (branchId : RowId) {session : Session} (now : Int64)
    (hs : s ∈ db.sessions.rows) (hne : s.id ≠ session.id) :
    (db.writeSession branchId session now).Has db s := by
  constructor
  · exact List.mem_append_left _ (List.mem_filter.mpr ⟨hs, by simpa using hne⟩)
  · exact messagesOf_writeSession_of_ne db branchId session now hne

/-! ## Entries that stay -/

theorem mem_removeHistory {other : HistoryKind} {p : HistoryEntry → Bool}
    (hentry : entry ∈ (db.history kind).rows) (hp : kind = other → p entry = false) :
    entry ∈ ((db.removeHistory other p).history kind).rows := by
  rw [history_removeHistory]
  split
  · rename_i hkind
    exact List.mem_filter.mpr ⟨hentry, by rw [hp hkind]; rfl⟩
  · exact hentry

theorem mem_addEntry {other : HistoryKind} {branchId : RowId} {text : String} {now : Int64}
    (hentry : entry ∈ (db.history kind).rows) :
    entry ∈ ((db.addEntry other branchId text now).history kind).rows := by
  rw [history_addEntry]
  split
  · exact List.mem_append_left _ hentry
  · exact hentry

theorem Sound.mem_history_leaves (h : db.Sound) {deletion : Deletion}
    (hentry : entry ∈ (db.history kind).rows) {b : Branch} (hb : b ∈ db.branches.rows)
    (hid : b.id = entry.branchId) (hstays : deletion.takesBranch b = false) :
    entry ∈ ((deletion.leaves db).history kind).rows := by
  rw [Deletion.history_leaves]
  exact List.mem_filter.mpr ⟨hentry, by rw [Deletion.takesOwned_of_stays h hb hid hstays]; rfl⟩

/-- To add to a stream leaves the entries that are there, unless there is a limit for it. -/
theorem mem_appendHistory {other : HistoryKind} {scope : Scope} {text : String} {maxEntries : Nat}
    {now : Int64} (hentry : entry ∈ (db.history kind).rows)
    (hlimit : kind = other → maxEntries = 0) :
    entry ∈ ((db.appendHistory other scope text maxEntries now).history kind).rows := by
  have hadded : entry ∈ (((db.ensureScope scope).2.addEntry other (db.ensureScope scope).1 text
      now).history kind).rows := by
    apply mem_addEntry
    rw [history_ensureScope]
    exact hentry
  simp only [Database.appendHistory]
  split
  · exact hadded
  · rename_i hnone
    exact mem_removeHistory hadded fun hkind => absurd (hlimit hkind) hnone

/-! ## Limits that are kept to -/

/-- A text that is added to the history of a scope leaves no more entries there than are allowed. -/
theorem Sound.length_entriesOf_appendHistory (h : db.Sound) (kind : HistoryKind) (scope : Scope)
    (text : String) {maxEntries : Nat} (hlimit : maxEntries ≠ 0) (now : Int64) :
    ((db.appendHistory kind scope text maxEntries now).entriesOf kind scope).length ≤
      maxEntries := by
  obtain ⟨b, hlatest⟩ := h.exists_latestFirst_appendHistory kind scope text now
  have hlength := congrArg List.length (hlatest maxEntries).2
  rw [latestFirst, List.length_mergeSort, limited, if_neg hlimit] at hlength
  rw [hlength]
  exact List.length_take_le _ _

end Store.Database

/-! ## What an operation leaves -/

namespace Operation

variable {db after : Database} {path : Option String} {now : Int64} {operation : Operation}

/-- A branch stays or is deleted. -/
theorem removesBranch_or (operation : Operation) {id : RowId} {b : Branch}
    (hb : b ∈ db.branches.rows) (hid : b.id = id) :
    operation.RemovesBranch db id ∨
      operation ≠ .deleteBranch b.id ∧ operation ≠ .deleteRepository b.repositoryId := by
  by_cases hbranch : operation = .deleteBranch b.id
  · rw [hbranch, hid]
    exact .inl .itself
  · by_cases hrepository : operation = .deleteRepository b.repositoryId
    · rw [hrepository]
      exact .inl (.repository hb hid)
    · exact .inr ⟨hbranch, hrepository⟩

/-- A session is left by an operation with all its messages, unless the operation may remove it. -/
theorem removesSession_or_has (h : db.Sound)
    (hrun : (operation.run now ⟨path, some db⟩).2 = ⟨path, some after⟩) {s : SessionRow}
    (hs : s ∈ db.sessions.rows) : operation.RemovesSession db s ∨ after.Has db s := by
  obtain ⟨b, hb, hid⟩ := h.sessionOwner s hs
  rcases removesBranch_or operation hb hid with hremoves | ⟨hbranch, hrepository⟩
  · exact .inl (.branch hremoves)
  cases turns_of_run h.toIntact hrun with
  | beside _ hsides => exact .inr (Database.has_of_widens hsides.widens hs)
  | saveSession session scope =>
    by_cases hsame : session.id = s.id
    · exact .inl (.overwritten hsame)
    · have hthere := Database.has_of_widens (db.ensureScope_changes scope).widens hs
      obtain ⟨hrow, hmessages⟩ := Database.has_writeSession (db.ensureScope scope).1 now
        hthere.row (Ne.symm hsame)
      exact .inr ⟨hrow, hmessages.trans hthere.messages⟩
  | deleteSession id =>
    by_cases hsame : s.id = id
    · rw [← hsame]
      exact .inl .itself
    · exact .inr (h.has_removeSessions hs (by simpa using hsame))
  | deleteBranch id =>
    have hne : b.id ≠ id := fun heq => hbranch (by rw [heq])
    have hstays : (Deletion.branch id).takesOwned db s.branchId = false :=
      Deletion.takesOwned_of_stays h hb hid (beq_eq_false_iff_ne.mpr hne)
    rw [← Deletion.leaves_branch]
    exact .inr (h.has_leaves hs hstays)
  | deleteRepository id =>
    have hne : b.repositoryId ≠ id := fun heq => hrepository (by rw [heq])
    have hstays : (Deletion.repository id).takesOwned db s.branchId = false :=
      Deletion.takesOwned_of_stays h hb hid (beq_eq_false_iff_ne.mpr hne)
    rw [← Deletion.leaves_repository h]
    exact .inr (h.has_leaves hs hstays)
  | cleanupSessions maxAgeDays maxSessions =>
    by_cases hnone : maxAgeDays = 0 ∧ maxSessions = 0
    · -- without limits neither pass removes anything
      rw [hnone.1, hnone.2]
      exact .inr ⟨hs, rfl⟩
    · exact .inl (.limited hnone)

/-- An entry of a stream is left by an operation, unless the operation may remove it. -/
theorem removesEntry_or_mem (h : db.Sound)
    (hrun : (operation.run now ⟨path, some db⟩).2 = ⟨path, some after⟩) {kind : HistoryKind}
    {entry : HistoryEntry} (hentry : entry ∈ (db.history kind).rows) :
    operation.RemovesEntry db kind entry ∨ entry ∈ (after.history kind).rows := by
  obtain ⟨b, hb, hid⟩ := h.entryOwner kind entry hentry
  -- where its branch is not removed, the entry can only go by itself
  rcases removesBranch_or operation hb hid with hremoves | ⟨hbranch, hrepository⟩
  · exact .inl (.branch hremoves)
  cases operation.turnsHistory_of_run h hrun with
  | beside _ hsame =>
    rw [hsame kind]
    exact .inr hentry
  | appendHistory other scope text maxEntries =>
    by_cases htrimmed : kind = other ∧ maxEntries ≠ 0
    · rw [← htrimmed.1]
      exact .inl (.trimmed htrimmed.2)
    · refine .inr (Database.mem_appendHistory hentry ?_)
      intro hkind
      exact not_not.mp fun hlimit => htrimmed ⟨hkind, hlimit⟩
  | clearNothing _ => exact .inr hentry
  | @clearHistory other scope c hscope =>
    by_cases hcleared : kind = other ∧ c.id = entry.branchId
    · rw [← hcleared.1]
      exact .inl (.cleared hscope hcleared.2)
    · refine .inr (Database.mem_removeHistory hentry ?_)
      intro hkind
      exact beq_eq_false_iff_ne.mpr fun hsame => hcleared ⟨hkind, hsame.symm⟩
  | cleanupNothing => exact .inr hentry
  | cleanupHistory hlimit => exact .inl (.expired hlimit)
  | deleteBranch id =>
    have hne : b.id ≠ id := fun heq => hbranch (by rw [heq])
    exact .inr (h.mem_history_leaves hentry hb hid (beq_eq_false_iff_ne.mpr hne))
  | deleteRepository id =>
    have hne : b.repositoryId ≠ id := fun heq => hrepository (by rw [heq])
    exact .inr (h.mem_history_leaves hentry hb hid (beq_eq_false_iff_ne.mpr hne))

end Operation

end SessionArchive
