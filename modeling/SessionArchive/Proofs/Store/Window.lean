import SessionArchive.Proofs.Store.Remaining

/-!
# The retention window

A retention pass leaves a window of the listing of all sessions: those saved within a number of
days, and of these the first ones. `Store.cleanupSessions_play` says so of every store that a run
reaches, whatever its clock showed: the sessions of the window are loaded as before, all others are
gone with their messages and counted in the report, and nothing else changes.
-/

set_option autoImplicit false

namespace SessionArchive

namespace Store

namespace Database

variable {db : Database}

theorem limited_sublist {α : Type} (limit : Nat) (xs : List α) : (limited limit xs).Sublist xs := by
  rw [limited]
  split
  · exact .refl xs
  · exact List.take_sublist limit xs

/-! ## Keeping sessions -/

/-- The database with the sessions of some ids and their messages, and no other sessions. -/
def keepSessions (db : Database) (ids : List String) : Database :=
  { db with
    sessions := db.sessions.withRows (db.sessions.rows.filter fun s => ids.contains s.id)
    messages := db.messages.withRows (db.messages.rows.filter fun m => ids.contains m.sessionId) }

/-- To remove sessions is to keep those with the other ids. -/
theorem Sound.removeSessions_eq (h : db.Sound) {p : SessionRow → Bool} {ids : List String}
    (hids : ∀ s ∈ db.sessions.rows, p s = !ids.contains s.id) :
    db.removeSessions p = db.keepSessions ids := by
  have hsessions : db.sessions.rows.filter (!p ·) =
      db.sessions.rows.filter fun s => ids.contains s.id := by
    apply List.filter_congr
    intro s hs
    rw [hids s hs, Bool.not_not]
  have hmessages : db.messages.rows.filter (fun m =>
      !((db.sessions.rows.filter p).map SessionRow.id).contains m.sessionId) =
      db.messages.rows.filter fun m => ids.contains m.sessionId := by
    apply List.filter_congr
    intro m hm
    -- a message goes with its session
    obtain ⟨s, hs, hid⟩ := h.messageOwner m hm
    rw [← hid, h.contains_removed hs, hids s hs, Bool.not_not]
  simp only [Database.removeSessions, hsessions, hmessages, Database.keepSessions]

section Keep

variable (h : db.Sound) (ids : List String)

include h

theorem Sound.keepSessions_eq :
    db.keepSessions ids = db.removeSessions fun s => !ids.contains s.id :=
  (h.removeSessions_eq fun _ _ => rfl).symm

theorem Sound.keepSessions : (db.keepSessions ids).Sound := by
  rw [h.keepSessions_eq]
  exact h.removeSessions _

theorem Sound.has_keepSessions {row : SessionRow} (hrow : row ∈ db.sessions.rows)
    (hid : ids.contains row.id = true) : (db.keepSessions ids).Has db row := by
  rw [h.keepSessions_eq]
  exact h.has_removeSessions hrow (by simp only [hid, Bool.not_true])

end Keep

/-- What is kept of a part of a listing is listed then. -/
theorem Sound.summaries_keepSessions (h : db.Sound) {left : List SessionSummary}
    (hleft : left.Sublist db.summaries) :
    (db.keepSessions (left.map SessionSummary.id)).summaries = left := by
  have hafter := h.keepSessions (left.map SessionSummary.id)
  have hlater : db.Later (db.keepSessions (left.map SessionSummary.id)) := ⟨.refl _, .refl _⟩
  have hfilter : (db.keepSessions (left.map SessionSummary.id)).summaries =
      db.summaries.filter fun s => (left.map SessionSummary.id).contains s.id := by
    refine h.summaries_of_has hafter hlater rfl ?_ ?_
    · intro row hrow hid
      exact h.has_keepSessions _ hrow hid
    · intro row hrow s hs
      rw [(summary?_fields hs).1]
  exact hfilter.trans (filter_contains_of_sublist (.refl left) hleft h.pairwise_summaries)

theorem keepSessions_keepSessions (db : Database) {ids others : List String}
    (hids : ids ⊆ others) : (db.keepSessions others).keepSessions ids = db.keepSessions ids := by
  have hboth : ∀ id, (ids.contains id && others.contains id) = ids.contains id := by
    intro id
    rw [Bool.and_eq_left_iff_imp, List.contains_iff_mem, List.contains_iff_mem]
    exact fun hmem => hids hmem
  simp only [keepSessions, Table.withRows, List.filter_filter, hboth]

/-- To keep all sessions that are listed changes nothing. -/
theorem Sound.keepSessions_summaries (h : db.Sound) :
    db.keepSessions (db.summaries.map SessionSummary.id) = db := by
  rw [← h.removeSessions_eq (p := fun _ => false), removeSessions_of_none fun _ _ => rfl]
  intro row hrow
  obtain ⟨s, hs, hid, _⟩ := h.exists_summary hrow
  rw [← hid, List.contains_iff_mem.mpr (List.mem_map_of_mem hs)]
  rfl

/-! ## The two passes -/

/-- The pass by age keeps the sessions of a listing that were saved within the days. -/
theorem Sound.expireSessions_eq (h : db.Sound) (now : Int64) (days : Nat) :
    db.expireSessions now days =
      db.keepSessions ((withinDays SessionSummary.lastUpdated now days db.summaries).map
        SessionSummary.id) := by
  by_cases hdays : days = 0
  · rw [expireSessions, if_pos hdays, withinDays, if_pos hdays,
      h.keepSessions_summaries]
  · rw [expireSessions, if_neg hdays, withinDays, if_neg hdays]
    apply h.removeSessions_eq
    intro row hrow
    obtain ⟨s, hs, hid, htime⟩ := h.exists_summary hrow
    rw [← hid, contains_map_filter hs fun t ht hsame => h.summary_eq ht hs hsame, htime, ageCutoff,
      Time.secondsPerDay]
    simp only [← decide_not, Int.not_le]

/-- The pass by number keeps the first sessions of a listing. -/
theorem Sound.trimSessions_eq (h : db.Sound) (keep : Nat) :
    db.trimSessions keep =
      db.keepSessions ((limited keep db.summaries).map SessionSummary.id) := by
  by_cases hkeep : keep = 0
  · rw [trimSessions, if_pos hkeep, limited, if_pos hkeep, h.keepSessions_summaries]
  · have hids := h.map_summaries fun _ _ hsummary => (summary?_fields hsummary).1
    have hkept : (db.summaries.take keep).map SessionSummary.id =
        ((byRecency db.sessions.rows).take keep).map SessionRow.id := by
      rw [List.map_take, hids, ← List.map_take]
    rw [trimSessions, if_neg hkeep, limited, if_neg hkeep, hkept]
    exact h.removeSessions_eq fun _ _ => rfl

/-- After the pass by age, the pass by number keeps the first ones of those that are left. -/
theorem Sound.trimSessions_expireSessions (h : db.Sound) (now : Int64) (days keep : Nat) :
    (db.expireSessions now days).trimSessions keep =
      db.keepSessions ((limited keep
        (withinDays SessionSummary.lastUpdated now days db.summaries)).map SessionSummary.id) := by
  have hfresh := withinDays_sublist SessionSummary.lastUpdated now days db.summaries
  rw [h.expireSessions_eq]
  generalize withinDays SessionSummary.lastUpdated now days db.summaries = fresh at *
  rw [(h.keepSessions _).trimSessions_eq, h.summaries_keepSessions hfresh]
  apply keepSessions_keepSessions
  exact ((limited_sublist keep fresh).map _).subset

/-! ## What is left -/

/-- A session that is listed is loaded as before where it is kept, and not found elsewhere. -/
theorem Sound.loadSession_keepSessions (h : db.Sound) {left : List SessionSummary}
    (hleft : left.Sublist db.summaries) {s : SessionSummary} (hs : s ∈ db.summaries) :
    (db.keepSessions (left.map SessionSummary.id)).loadSession s.id =
      if s ∈ left then db.loadSession s.id else .error (.sessionNotFound s.id) := by
  have hafter := h.keepSessions (left.map SessionSummary.id)
  obtain ⟨row, hrow, hsummary⟩ := List.mem_filterMap.mp hs
  have hrow := List.mem_mergeSort.mp hrow
  have hid := (summary?_fields hsummary).1
  split
  · rename_i hmem
    have hkept : (left.map SessionSummary.id).contains row.id = true := by
      rw [← hid]
      exact List.contains_iff_mem.mpr (List.mem_map_of_mem hmem)
    rw [hid]
    exact h.loadSession_of_has hafter ⟨.refl _, .refl _⟩ hrow (h.has_keepSessions _ hrow hkept)
  · rename_i hout
    apply hafter.toIntact.loadSession_absent
    rintro other hother hsame
    -- a row with the id would be kept for a summary of the listing that has it
    have hmem := List.contains_iff_mem.mp (List.mem_filter.mp hother).2
    obtain ⟨t, ht, htid⟩ := List.mem_map.mp hmem
    rw [h.summary_eq (hleft.subset ht) hs (htid.trans hsame)] at ht
    exact hout ht

/-- The number of sessions in the report. -/
theorem Sound.stats_keepSessions (h : db.Sound) {left : List SessionSummary}
    (hleft : left.Sublist db.summaries) :
    ∃ counts, (db.keepSessions (left.map SessionSummary.id)).stats = .ok counts ∧
      counts.sessions = left.length := by
  have hafter := h.keepSessions (left.map SessionSummary.id)
  rw [stats, hafter.toIntact.requireAll]
  refine ⟨_, rfl, ?_⟩
  show (db.keepSessions _).sessions.rows.length = _
  rw [← hafter.length_summaries, h.summaries_keepSessions hleft]

end Database

/-- The retention pass keeps the window of the listing, and counts what it removes. -/
theorem cleanupSessions_sound {db : Database} (h : db.Sound) (path : Option String)
    (maxAgeDays maxSessions : Nat) (now : Int64) :
    let fresh := withinDays SessionSummary.lastUpdated now maxAgeDays db.summaries
    let left := Database.limited maxSessions fresh
    Store.cleanupSessions ⟨path, some db⟩ maxAgeDays maxSessions now =
      (.ok ⟨db.summaries.length - fresh.length, fresh.length - left.length⟩,
        ⟨path, some (db.keepSessions (left.map SessionSummary.id))⟩) := by
  intro fresh left
  have hfresh : fresh.Sublist db.summaries := withinDays_sublist _ _ _ _
  have hleft : left.Sublist fresh := Database.limited_sublist _ _
  have hfreshRows := (h.keepSessions (fresh.map SessionSummary.id)).length_summaries
  have hleftRows := (h.keepSessions (left.map SessionSummary.id)).length_summaries
  rw [h.summaries_keepSessions hfresh] at hfreshRows
  rw [h.summaries_keepSessions (hleft.trans hfresh)] at hleftRows
  have hcleanup := cleanupSessions_intact h.toIntact path maxAgeDays maxSessions now
  dsimp only at hcleanup
  rw [h.trimSessions_expireSessions, h.expireSessions_eq, ← h.length_summaries] at hcleanup
  rw [hcleanup, hfreshRows, hleftRows]

/-- After every run a retention pass leaves the window of the listing, the sessions saved within the
days and of these the first ones: they are kept with their messages and are loaded as before, the
others are gone and counted in the report, and nothing else changes. -/
theorem cleanupSessions_play (path : Option String) (start : Int64)
    (run : List (Int64 × Operation)) (maxAgeDays maxSessions : Nat) (now : Int64) :
    let store := (Store.fresh path start).play run
    ∃ db all, store = ⟨path, some db⟩ ∧ store.listAllSessions 0 = .ok all ∧
      let fresh := withinDays SessionSummary.lastUpdated now maxAgeDays all
      let left := Database.limited maxSessions fresh
      let after : Store := ⟨path, some (db.keepSessions (left.map SessionSummary.id))⟩
      ∃ report counts countsAfter,
        store.cleanupSessions maxAgeDays maxSessions now = (.ok report, after) ∧
        report.expired + fresh.length = all.length ∧
        report.overLimit + left.length = fresh.length ∧
        store.stats = .ok counts ∧ after.stats = .ok countsAfter ∧
        countsAfter.sessions + (report.expired + report.overLimit) = counts.sessions ∧
        after.listAllSessions 0 = .ok left ∧
        ∀ s ∈ all, after.loadSession s.id =
          if s ∈ left then store.loadSession s.id else .error (.sessionNotFound s.id) := by
  obtain ⟨db, hplay, h⟩ := play_sound path start run
  rw [hplay]
  refine ⟨db, db.summaries, rfl, h.toIntact.listAllSessions_eq, ?_⟩
  intro fresh left after
  have hfresh : fresh.Sublist db.summaries := withinDays_sublist _ _ _ _
  have hleft : left.Sublist fresh := Database.limited_sublist _ _
  have hcleanup := cleanupSessions_sound h path maxAgeDays maxSessions now
  obtain ⟨counts, hcounts, hsessions⟩ := h.stats_keepSessions (.refl db.summaries)
  obtain ⟨countsAfter, hcountsAfter, hsessionsAfter⟩ :=
    h.stats_keepSessions (hleft.trans hfresh)
  rw [h.keepSessions_summaries] at hcounts
  have hfreshLength := hfresh.length_le
  have hleftLength := hleft.length_le
  refine ⟨_, counts, countsAfter, hcleanup, ?_, ?_, hcounts, hcountsAfter, ?_, ?_, ?_⟩
  · exact Nat.sub_add_cancel hfreshLength
  · exact Nat.sub_add_cancel hleftLength
  · rw [hsessions, hsessionsAfter]
    show left.length + (db.summaries.length - fresh.length + (fresh.length - left.length)) =
      db.summaries.length
    omega
  · show Database.listAllSessions _ 0 = _
    rw [(h.keepSessions _).toIntact.listAllSessions_eq,
      h.summaries_keepSessions (hleft.trans hfresh)]
  · intro s hs
    exact h.loadSession_keepSessions (hleft.trans hfresh) hs

end Store

end SessionArchive
