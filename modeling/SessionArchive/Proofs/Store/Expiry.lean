import SessionArchive.Proofs.Store.Census
import SessionArchive.Proofs.Store.Latest

/-!
# History that expires

The cleanup of history drops the entries that are older than a number of days from both streams of
every branch. `Store.cleanupHistory_play` says so of every store that a run reaches: each load
answers what it did before less the old entries, the answer is their number, nothing else changes,
and a cleanup right after finds nothing.
-/

set_option autoImplicit false

namespace SessionArchive

namespace Store

/-- Of the entries in order, those of some days are the entries of these days in order. -/
theorem reverse_latestFirst_withinDays (now : Int64) (days : Nat) (entries : List HistoryEntry) :
    (latestFirst (withinDays HistoryEntry.timestamp now days entries)).reverse =
      withinDays HistoryEntry.timestamp now days (latestFirst entries).reverse := by
  simp only [withinDays]
  split
  · rfl
  · rw [latestFirst_filter, List.filter_reverse]

namespace Database

variable {db : Database}

/-- The database without the old entries, if there is a limit. -/
def cleanupHistory (db : Database) (now : Int64) (days : Nat) : Database :=
  if days = 0 then db else db.expireHistory now days

section Cleanup

variable (db) (now : Int64) (days : Nat)

theorem history_cleanupHistory (kind : HistoryKind) :
    ((db.cleanupHistory now days).history kind).rows =
      withinDays HistoryEntry.timestamp now days (db.history kind).rows := by
  rw [cleanupHistory, withinDays]
  split
  · rfl
  · exact db.history_expireHistory now days kind

theorem entriesOf_cleanupHistory (kind : HistoryKind) (scope : Scope) :
    (db.cleanupHistory now days).entriesOf kind scope =
      withinDays HistoryEntry.timestamp now days (db.entriesOf kind scope) := by
  rw [cleanupHistory, withinDays]
  split
  · rfl
  · exact db.entriesOf_expireHistory now days kind scope

/-- Only the two streams change. -/
theorem exists_cleanupHistory : ∃ prompts commands,
    db.cleanupHistory now days = { db with prompts := prompts, commands := commands } := by
  rw [cleanupHistory]
  split
  · exact ⟨db.prompts, db.commands, rfl⟩
  · exact ⟨_, _, rfl⟩

/-- Where the old entries are gone, there are none to drop. -/
theorem cleanupHistory_cleanupHistory :
    (db.cleanupHistory now days).cleanupHistory now days = db.cleanupHistory now days := by
  by_cases hdays : days = 0
  · rw [cleanupHistory, if_pos hdays]
  · have hnone : ∀ kind, ∀ entry ∈ ((db.expireHistory now days).history kind).rows,
        decide (entry.timestamp.toInt < ageCutoff now days) = false := by
      intro kind entry hentry
      rw [history_expireHistory] at hentry
      have hrecent := (List.mem_filter.mp hentry).2
      rw [decide_eq_true_iff] at hrecent
      exact decide_eq_false (Int.not_lt.mpr hrecent)
    simp only [cleanupHistory, if_neg hdays]
    generalize db.expireHistory now days = after at hnone ⊢
    rw [expireHistory, removeHistory_of_none (hnone .prompt),
      removeHistory_of_none (hnone .command)]

variable {db} in
theorem Sound.cleanupHistory (h : db.Sound) : (db.cleanupHistory now days).Sound := by
  rw [Database.cleanupHistory]
  split
  · exact h
  · exact (db.expireHistory_changes now days).changes.sound h

end Cleanup

end Database

/-- A cleanup drops the old entries and answers their number. -/
theorem cleanupHistory_sound {db : Database} (h : db.Sound) (path : Option String)
    (maxAgeDays : Nat) (now : Int64) :
    let after := db.cleanupHistory now maxAgeDays
    ∃ count, Store.cleanupHistory ⟨path, some db⟩ maxAgeDays now =
        (.ok count, ⟨path, some after⟩) ∧
      count + (after.prompts.rows.length + after.commands.rows.length) =
        db.prompts.rows.length + db.commands.rows.length := by
  have hlength : ∀ kind, ((db.cleanupHistory now maxAgeDays).history kind).rows.length ≤
      (db.history kind).rows.length := by
    intro kind
    rw [db.history_cleanupHistory]
    exact (withinDays_sublist _ _ _ _).length_le
  have hprompts := hlength .prompt
  have hcommands := hlength .command
  refine ⟨_, cleanupHistory_intact h.toIntact path maxAgeDays now, ?_⟩
  simp only [Database.history, Database.cleanupHistory] at hprompts hcommands ⊢
  omega

/-- After every run a cleanup of history drops the entries that are older than a number of days from
what every load answers, counts them and changes nothing else; and to repeat it drops nothing. -/
theorem cleanupHistory_play (path : Option String) (start : Int64)
    (run : List (Int64 × Operation)) (maxAgeDays : Nat) (now : Int64) :
    let store := (Store.fresh path start).play run
    let cleaned := store.cleanupHistory maxAgeDays now
    ∃ (db : Database) (prompts commands : Table HistoryEntry) (count : Nat)
      (before : Census store) (after : Census cleaned.2),
      store = ⟨path, some db⟩ ∧
      cleaned = (.ok count, ⟨path, some { db with prompts := prompts, commands := commands }⟩) ∧
      before.Shows db ∧
      (∀ kind scope, after.history kind scope =
        withinDays HistoryEntry.timestamp now maxAgeDays (before.history kind scope)) ∧
      count + (after.entries .prompt + after.entries .command) =
        before.entries .prompt + before.entries .command ∧
      cleaned.2.cleanupHistory maxAgeDays now = (.ok 0, cleaned.2) ∧
      store.cleanupHistory 0 now = (.ok 0, store) := by
  obtain ⟨db, hplay, h⟩ := play_sound path start run
  have hafter := h.cleanupHistory now maxAgeDays
  obtain ⟨count, hcleanup, hcount⟩ := cleanupHistory_sound h path maxAgeDays now
  obtain ⟨none, hagain, hnone⟩ := cleanupHistory_sound hafter path maxAgeDays now
  obtain ⟨prompts, commands, hstreams⟩ := db.exists_cleanupHistory now maxAgeDays
  rw [Database.cleanupHistory_cleanupHistory] at hagain hnone
  -- as many entries are left after the second call as before it
  obtain rfl : none = 0 := by omega
  rw [hplay]
  intro store cleaned
  rw [show cleaned = _ from hcleanup]
  refine ⟨db, prompts, commands, count, h.toIntact.census path, hafter.toIntact.census path, rfl,
    by rw [hstreams], census_shows h path, ?_, ?_, hagain, rfl⟩
  · intro kind scope
    -- a load answers the rows of a branch in order, and what is old is dropped from the rows
    show (latestFirst ((db.cleanupHistory now maxAgeDays).entriesOf kind scope)).reverse =
      withinDays HistoryEntry.timestamp now maxAgeDays
        (latestFirst (db.entriesOf kind scope)).reverse
    rw [db.entriesOf_cleanupHistory, reverse_latestFirst_withinDays]
  · rw [census_entries h, census_entries h, census_entries hafter, census_entries hafter]
    exact hcount

end Store

end SessionArchive
