import SessionArchive.Proofs.Store.Consistent
import SessionArchive.Proofs.Store.Listing
import SessionArchive.Proofs.Store.Loading
import SessionArchive.Proofs.Store.Sorting

/-!
# Listings and loads agree

The listings read the sessions with a count of their messages, a load reads one session in two
steps. `Store.listings_agree` says that after every run they show the same: one list of all
sessions, in the order of their saves, of which every listing is a part, and in which each session
stands as a load yields it.
-/

set_option autoImplicit false

namespace SessionArchive

/-- What a listing shows of a session. -/
def LoadedSession.summary (loaded : LoadedSession) : SessionSummary :=
  ⟨loaded.session.id, loaded.scope, loaded.session.createdAt, loaded.session.lastUpdated,
    loaded.session.firstPrompt, loaded.session.provider, loaded.session.model,
    loaded.session.workingDir, loaded.session.messages.length⟩

namespace Store

/-- A session was saved after another: later, or in the same second with a greater number. -/
def SessionRow.SavedAfter (a b : SessionRow) : Prop :=
  b.lastUpdated < a.lastUpdated ∨ a.lastUpdated = b.lastUpdated ∧ b.saveSeq < a.saveSeq

/-! ## Numbers of messages -/

theorem Transcript.length_eq {sessionId : String} {sequence : Nat} {rows : List MessageRow}
    {messages : List Message} (h : Transcript sessionId sequence rows messages) :
    rows.length = messages.length := by
  induction h with
  | nil => rfl
  | cons id sequence message rest ih => rw [List.length_cons, List.length_cons, ih]

theorem length_columnsOf (sequence : Nat) (messages : List Message) :
    (columnsOf sequence messages).length = messages.length := by
  induction messages generalizing sequence with
  | nil => rfl
  | cons message rest ih => rw [columnsOf, List.length_cons, List.length_cons, ih]

/-- Where all is decoded, there is a message for each row. -/
theorem length_of_decodeAll {sessionId : String} {columns : List MessageColumns}
    {messages : List Message} (h : decodeAll sessionId columns = .ok messages) :
    messages.length = columns.length := by
  induction columns generalizing messages with
  | nil =>
    cases h
    rfl
  | cons first rest ih =>
    rw [decodeAll] at h
    split at h
    · cases hrest : decodeAll sessionId rest with
      | error failure =>
        rw [hrest] at h
        cases h
      | ok others =>
        rw [hrest] at h
        cases h
        rw [List.length_cons, List.length_cons, ih hrest]
    · cases h

namespace Database

variable {db : Database}

/-! ## One session -/

/-- A session is loaded as its summary shows it, where it can be loaded. -/
theorem Sound.summary_of_loadSession (h : db.Sound) {row : SessionRow}
    (hrow : row ∈ db.sessions.rows) {loaded : LoadedSession}
    (hload : db.loadSession row.id = .ok loaded) : db.summary? row = some loaded.summary := by
  obtain ⟨scope, hscope⟩ := h.exists_scopeOf? hrow
  obtain ⟨messages, htranscript⟩ := h.transcripts row hrow
  rw [h.loadSession_eq hrow hscope htranscript] at hload
  cases hdecode : decodeAll row.id (columnsOf 0 messages) with
  | error failure =>
    rw [hdecode] at hload
    cases hload
  | ok decoded =>
    rw [hdecode] at hload
    cases hload
    -- one row for each message, and one message decoded for each row
    have hcount : (db.messagesOf row.id).length = decoded.length := by
      rw [htranscript.length_eq, length_of_decodeAll hdecode, length_columnsOf]
    simp only [summary?, hscope, Option.map_some, hcount]
    rfl

/-! ## All sessions -/

/-- The order of recency is strict, as no two saves have one number. -/
theorem Sound.pairwise_byRecency (h : db.Sound) :
    (byRecency db.sessions.rows).Pairwise SessionRow.SavedAfter := by
  have hlatest : (byRecency db.sessions.rows).Pairwise fun a b =>
      b.lastUpdated.toInt < a.lastUpdated.toInt ∨
        a.lastUpdated.toInt = b.lastUpdated.toInt ∧ b.saveSeq < a.saveSeq := by
    refine pairwise_mergeSort_latest (fun a _ b _ => ?_) (h.saves.imp Int.ne_of_lt)
    simp [recencyLe, ← Int64.toInt_inj]
  apply hlatest.imp
  intro a b hab
  simpa only [SessionRow.SavedAfter, Int64.lt_iff_toInt_lt, ← Int64.toInt_inj] using hab

theorem summary?_fields {row : SessionRow} {summary : SessionSummary}
    (h : db.summary? row = some summary) :
    summary.id = row.id ∧ summary.lastUpdated = row.lastUpdated ∧
      summary.messageCount = (db.messagesOf row.id).length := by
  obtain ⟨scope, _, rfl⟩ := Option.map_eq_some_iff.mp h
  exact ⟨rfl, rfl, rfl⟩

/-- Every session is listed, whatever branch it belongs to. -/
theorem Sound.map_summaries (h : db.Sound) {κ : Type} {key : SessionSummary → κ}
    {rowKey : SessionRow → κ}
    (hkey : ∀ row summary, db.summary? row = some summary → key summary = rowKey row) :
    db.summaries.map key = (byRecency db.sessions.rows).map rowKey := by
  rw [summaries, List.map_filterMap, ← List.filterMap_eq_map]
  apply List.filterMap_congr
  intro row hrow
  obtain ⟨summary, hsummary⟩ :=
    Option.isSome_iff_exists.mp (h.isSome_summary? (List.mem_mergeSort.mp hrow))
  rw [hsummary, Option.map_some, hkey row summary hsummary]
  rfl

theorem Sound.length_summaries (h : db.Sound) : db.summaries.length = db.sessions.rows.length := by
  have hids := congrArg List.length (h.map_summaries fun _ _ hs => (summary?_fields hs).1)
  rw [List.length_map, List.length_map] at hids
  exact hids.trans (List.length_mergeSort _)

theorem Sound.exists_summary (h : db.Sound) {row : SessionRow} (hrow : row ∈ db.sessions.rows) :
    ∃ s ∈ db.summaries, s.id = row.id ∧ s.lastUpdated = row.lastUpdated := by
  obtain ⟨s, hs⟩ := Option.isSome_iff_exists.mp (h.isSome_summary? hrow)
  obtain ⟨hid, htime, _⟩ := summary?_fields hs
  exact ⟨s, List.mem_filterMap.mpr ⟨row, List.mem_mergeSort.mpr hrow, hs⟩, hid, htime⟩

/-- A listing tells the sessions apart by their ids. -/
theorem Sound.pairwise_summaries (h : db.Sound) :
    db.summaries.Pairwise fun s t => s.id ≠ t.id := by
  have hids := h.map_summaries fun _ _ hsummary => (summary?_fields hsummary).1
  have hrows : (db.sessions.rows.map SessionRow.id).Nodup := List.pairwise_map.mpr h.sessionIds
  apply List.pairwise_map.mp
  rw [hids]
  exact ((List.mergeSort_perm _ _).map _).nodup_iff.mpr hrows

theorem Sound.summary_eq (h : db.Sound) {s t : SessionSummary} (hs : s ∈ db.summaries)
    (ht : t ∈ db.summaries) (hid : s.id = t.id) : s = t :=
  eq_of_pairwise_not (S := fun a b => a.id = b.id) (fun _ _ => Eq.symm) h.pairwise_summaries hs ht
    hid

end Database

/-! ## All reads -/

/-- After every run there is one list of all sessions that are stored, each once and in the order of
their saves, which every listing is a part of; and a load yields a session as the list shows it. -/
theorem listings_agree (path : Option String) (start : Int64) (run : List (Int64 × Operation)) :
    let store := (Store.fresh path start).play run
    ∃ (db : Database) (rows : List SessionRow) (all : List SessionSummary),
      store.database = some db ∧ rows.Perm db.sessions.rows ∧
      rows.Pairwise SessionRow.SavedAfter ∧
      all.map (fun s => (s.id, s.lastUpdated)) = rows.map (fun row => (row.id, row.lastUpdated)) ∧
      (all.map SessionSummary.id).Nodup ∧
      (∀ limit, store.listAllSessions limit = .ok (Database.limited limit all)) ∧
      (∀ scope limit, store.listSessions scope limit =
        .ok (Database.limited limit (all.filter fun s => s.scope == scope))) ∧
      ∀ s ∈ all, ∀ loaded, store.loadSession s.id = .ok loaded → s = loaded.summary := by
  obtain ⟨db, hplay, h⟩ := play_sound path start run
  intro store
  simp only [store, hplay]
  have hkeys : db.summaries.map (fun s => (s.id, s.lastUpdated)) =
      (Database.byRecency db.sessions.rows).map fun row => (row.id, row.lastUpdated) :=
    h.map_summaries fun _ _ hsummary =>
      Prod.ext (Database.summary?_fields hsummary).1 (Database.summary?_fields hsummary).2.1
  have hids := h.map_summaries fun _ _ hsummary => (Database.summary?_fields hsummary).1
  refine ⟨db, Database.byRecency db.sessions.rows, db.summaries, rfl, List.mergeSort_perm _ _,
    h.pairwise_byRecency, hkeys, ?_, h.toIntact.listAllSessions_limited,
    h.toIntact.listSessions_limited, ?_⟩
  · rw [hids]
    exact ((List.mergeSort_perm _ _).map _).nodup_iff.mpr h.consistent.sessionIds
  · intro s hs loaded hload
    obtain ⟨row, hrow, hsummary⟩ := List.mem_filterMap.mp hs
    rw [(Database.summary?_fields hsummary).1] at hload
    have hsame := h.summary_of_loadSession (List.mem_mergeSort.mp hrow) hload
    rw [hsummary] at hsame
    exact Option.some.inj hsame

end Store

end SessionArchive
