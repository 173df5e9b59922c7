import SessionArchive.Proofs.Store.Sound

/-!
# Consistency of the tables

`Consistent` is what the layout of the tables promises and what the save protocol adds to it: owners
exist, keys are unique, the messages of a session are numbered from zero without gaps, their columns
repeat what their content says, and the saves are told apart by their numbers.
`Store.play_consistent` says that it holds after every run of operations.
-/

set_option autoImplicit false

namespace SessionArchive.Store

/-- The columns beside the content of a message are the role and the time that the content has. -/
def MessageRow.RepeatsContent (row : MessageRow) : Prop :=
  ∃ message : Message, row.content = .text message.encode ∧
    row.role = .text message.role.name ∧ row.createdAt = .integer message.createdAt.toInt

namespace Database

/-- What holds between the rows of the tables. -/
structure Consistent (db : Database) : Prop where
  branchOwner : ∀ b ∈ db.branches.rows, ∃ r ∈ db.repositories.rows, r.id = b.repositoryId
  sessionOwner : ∀ s ∈ db.sessions.rows, ∃ b ∈ db.branches.rows, b.id = s.branchId
  entryOwner : ∀ kind, ∀ e ∈ (db.history kind).rows, ∃ b ∈ db.branches.rows, b.id = e.branchId
  messageOwner : ∀ m ∈ db.messages.rows, ∃ s ∈ db.sessions.rows, s.id = m.sessionId
  repositoryKeys : (db.repositories.rows.map fun r => (r.host, r.org, r.project)).Nodup
  branchKeys : (db.branches.rows.map fun b => (b.repositoryId, b.name)).Nodup
  sessionIds : (db.sessions.rows.map SessionRow.id).Nodup
  sequences : ∀ s ∈ db.sessions.rows, ((db.messagesOf s.id).map MessageRow.sequence).Perm
    ((List.range (db.messagesOf s.id).length).map fun n : Nat => Cell.integer n)
  messageIds : ∀ a ∈ db.messages.rows, ∀ b ∈ db.messages.rows, a.sessionId = b.sessionId →
    ∀ i j : Int, a.sequence = .integer i → b.sequence = .integer j → i < j → a.id < b.id
  columns : ∀ m ∈ db.messages.rows, m.RepeatsContent
  saveSeqPositive : ∀ s ∈ db.sessions.rows, 1 ≤ s.saveSeq
  saveSeqs : (db.sessions.rows.map SessionRow.saveSeq).Nodup

end Database

/-! ## Consequences of a transcript -/

theorem messageRow_repeatsContent (id : RowId) (sessionId : String) (sequence : Nat)
    (message : Message) : (messageRow id sessionId sequence message).RepeatsContent :=
  ⟨message, rfl, rfl, rfl⟩

namespace Database

namespace Sound

variable {db : Database}

/-- The transcript that a stored message belongs to. -/
theorem exists_transcript (h : db.Sound) {m : MessageRow} (hm : m ∈ db.messages.rows) :
    m ∈ db.messagesOf m.sessionId ∧
      ∃ messages, Transcript m.sessionId 0 (db.messagesOf m.sessionId) messages := by
  obtain ⟨s, hs, hid⟩ := h.messageOwner m hm
  rw [← hid]
  exact ⟨List.mem_filter.mpr ⟨hm, beq_iff_eq.mpr hid.symm⟩, h.transcripts s hs⟩

theorem messageIds_ascend (h : db.Sound) {a b : MessageRow} (ha : a ∈ db.messages.rows)
    (hb : b ∈ db.messages.rows) (hsession : a.sessionId = b.sessionId) {i j : Int}
    (hi : a.sequence = .integer i) (hj : b.sequence = .integer j) (hlt : i < j) : a.id < b.id := by
  obtain ⟨hmemA, messages, htranscript⟩ := h.exists_transcript ha
  obtain ⟨hmemB, _⟩ := h.exists_transcript hb
  rw [← hsession] at hmemB
  have hids : (db.messagesOf a.sessionId).Pairwise fun a b => a.id < b.id :=
    h.messageIds.ascending.filter _
  have hplaces : (db.messagesOf a.sessionId).Pairwise fun a b =>
      ∀ i j : Int, a.sequence = .integer i → b.sequence = .integer j → i < j := by
    apply htranscript.ascending.imp
    rintro a b ⟨m, n, hm, hn, hlt⟩ i j hi hj
    rw [hm] at hi
    rw [hn] at hj
    cases hi
    cases hj
    exact Int.ofNat_lt.mpr hlt
  have hboth := hids.and hplaces
  -- any two rows of a transcript are one, or their ids and places are ordered alike
  have hordered := List.Pairwise.forall_of_forall_of_flip
    (R := fun a b => ∀ i j : Int, a.sequence = .integer i → b.sequence = .integer j → i < j →
      a.id < b.id)
    (fun x _ i j hi hj hlt => by
      rw [hi] at hj
      cases hj
      exact absurd hlt (Int.lt_irrefl _))
    (hboth.imp fun hab _ _ _ _ _ => hab.1)
    (hboth.imp fun hab i j hi hj hlt => absurd (hab.2 j i hj hi) (Int.lt_asymm hlt))
  exact hordered hmemA hmemB i j hi hj hlt

theorem consistent (h : db.Sound) : db.Consistent where
  branchOwner := h.branchOwner
  sessionOwner := h.sessionOwner
  entryOwner := h.entryOwner
  messageOwner := h.messageOwner
  repositoryKeys := by
    refine List.pairwise_map.mpr (h.repositoryKeys.imp ?_)
    intro a b hne heq
    simp only [Prod.mk.injEq] at heq
    exact hne heq
  branchKeys := by
    refine List.pairwise_map.mpr (h.branchKeys.imp ?_)
    intro a b hne heq
    simp only [Prod.mk.injEq] at heq
    exact hne heq
  sessionIds := List.pairwise_map.mpr h.sessionIds
  sequences := by
    intro s hs
    obtain ⟨messages, htranscript⟩ := h.transcripts s hs
    rw [htranscript.sequences, List.range_eq_range']
  messageIds := fun a ha b hb hsession i j hi hj hlt =>
    h.messageIds_ascend ha hb hsession hi hj hlt
  columns := by
    intro m hm
    obtain ⟨hmem, messages, htranscript⟩ := h.exists_transcript hm
    obtain ⟨id, place, message, heq⟩ := htranscript.exists_of_mem hmem
    rw [heq]
    exact messageRow_repeatsContent _ _ _ _
  saveSeqPositive := h.one_le_save
  saveSeqs := List.pairwise_map.mpr (h.saves.imp Int.ne_of_lt)

end Sound

end Database

/-- After every run of operations on a store that was empty, the tables are consistent. -/
theorem play_consistent (path : Option String) (start : Int64) (run : List (Int64 × Operation)) :
    ∃ db, ((Store.fresh path start).play run).database = some db ∧ db.Consistent := by
  obtain ⟨db, hstore, h⟩ := play_sound path start run
  exact ⟨db, congrArg Store.database hstore, h.consistent⟩

end SessionArchive.Store
