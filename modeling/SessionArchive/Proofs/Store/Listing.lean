import SessionArchive.Proofs.Store.Clock
import SessionArchive.Proofs.Store.Lifetime
import SessionArchive.Proofs.Store.Lookup
import SessionArchive.Proofs.Store.Recency

/-!
# Listings show the order of the saves

The rows of the sessions stand in the order of their last saves, and keep the scopes that these were
made under. So `Store.listing_play` says that after every run during which the clock does not go
back a listing shows the stored sessions with the one saved last first, that a retention pass by
number keeps the first ones, and that none removes the session that was just saved.
-/

set_option autoImplicit false

namespace SessionArchive

/-! ## Lists -/

section Lists

variable {α β : Type}

theorem take_filterMap_of_isSome {f : α → Option β} {l : List α} (hf : ∀ a ∈ l, (f a).isSome)
    (count : Nat) : (l.filterMap f).take count = (l.take count).filterMap f := by
  induction l generalizing count with
  | nil => simp
  | cons a rest ih =>
    obtain ⟨hfirst, hrest⟩ := List.forall_mem_cons.mp hf
    obtain ⟨b, hb⟩ := Option.isSome_iff_exists.mp hfirst
    cases count with
    | zero => rfl
    | succ count => simp [hb, ih hrest]

end Lists

namespace Store.Database

variable {db after : Database} {log : List Saved} {clock : Int64}

/-! ## The saves that the rows stand for -/

/-- The save that a row of the sessions stands for, if its branch and repository are there. -/
def saved? (db : Database) (row : SessionRow) : Option Saved :=
  (db.scopeOf? row.branchId).map fun scope => ⟨row.id, scope⟩

/-- The saves that the rows of the sessions stand for. -/
def lastSaves (db : Database) : List Saved := db.sessions.rows.filterMap db.saved?

theorem id_of_saved? {row : SessionRow} {saved : Saved} (hsaved : db.saved? row = some saved) :
    row.id = saved.id := by
  obtain ⟨scope, _, rfl⟩ := Option.map_eq_some_iff.mp hsaved
  rfl

theorem Sound.exists_scopeOf? (h : db.Sound) {row : SessionRow} (hrow : row ∈ db.sessions.rows) :
    ∃ scope, db.scopeOf? row.branchId = some scope := by
  obtain ⟨b, hb, hid⟩ := h.sessionOwner row hrow
  obtain ⟨r, hr, howner⟩ := h.branchOwner b hb
  rw [← hid]
  exact ⟨_, h.scopeOf?_eq hb hr howner⟩

/-- The branch of a session is the one that its scope leads to. -/
theorem Sound.exists_findScope? (h : db.Sound) {row : SessionRow} {saved : Saved}
    (hrow : row ∈ db.sessions.rows) (hsaved : db.saved? row = some saved) :
    ∃ branch ∈ db.branches.rows, branch.id = row.branchId ∧
      db.findScope? saved.scope = some branch := by
  obtain ⟨b, hb, hid⟩ := h.sessionOwner row hrow
  obtain ⟨r, hr, howner⟩ := h.branchOwner b hb
  rw [saved?, ← hid, h.scopeOf?_eq hb hr howner] at hsaved
  obtain rfl := Option.some.inj hsaved
  exact ⟨b, hb, hid, h.findScope?_eq_some_iff.mpr ⟨hb, r, hr, howner, rfl⟩⟩

theorem Sound.isSome_summary? (h : db.Sound) {row : SessionRow} (hrow : row ∈ db.sessions.rows) :
    (db.summary? row).isSome = true := by
  obtain ⟨scope, hscope⟩ := h.exists_scopeOf? hrow
  simp [summary?, hscope]

theorem map_saved_summary? (db : Database) (row : SessionRow) :
    (db.summary? row).map SessionSummary.saved = db.saved? row := by
  simp only [summary?, saved?, Option.map_map]
  rfl

theorem Sound.lastSaves_ids (h : db.Sound) :
    db.lastSaves.map Saved.id = db.sessions.rows.map SessionRow.id := by
  rw [lastSaves, List.map_filterMap, ← List.filterMap_eq_map]
  apply List.filterMap_congr
  intro row hrow
  obtain ⟨scope, hscope⟩ := h.exists_scopeOf? hrow
  simp [saved?, hscope]

theorem filterMap_saved?_filter (db : Database) (id : String) :
    (db.sessions.rows.filter fun s => s.id != id).filterMap db.saved? =
      db.lastSaves.filter (·.id != id) := by
  rw [lastSaves, List.filterMap_filter, List.filter_filterMap]
  congr 1
  funext row
  cases hscope : db.scopeOf? row.branchId with
  | none => simp [saved?, hscope]
  | some scope => simp [saved?, hscope, Option.filter]

/-- A row keeps its scope for as long as it stays. -/
theorem Sound.scopeOf?_of_later (h : db.Sound) (hafter : after.Sound) (hlater : db.Later after)
    {row : SessionRow} (hrow : row ∈ db.sessions.rows) (hstays : row ∈ after.sessions.rows) :
    after.scopeOf? row.branchId = db.scopeOf? row.branchId := by
  obtain ⟨b, hb, hid⟩ := h.sessionOwner row hrow
  obtain ⟨c, hc, hcid⟩ := hafter.sessionOwner row hstays
  obtain rfl := hlater.branches.eq_of_id h.branchIds hb hc (hcid.trans hid.symm)
  obtain ⟨r, hr, howner⟩ := h.branchOwner c hb
  obtain ⟨s, hs, hsowner⟩ := hafter.branchOwner c hc
  obtain rfl := hlater.repositories.eq_of_id h.repositoryIds hr hs (hsowner.trans howner.symm)
  rw [← hid, hafter.scopeOf?_eq hc hs hsowner, h.scopeOf?_eq hb hr howner]

theorem Sound.saved?_of_later (h : db.Sound) (hafter : after.Sound) (hlater : db.Later after)
    {row : SessionRow} (hrow : row ∈ db.sessions.rows) (hstays : row ∈ after.sessions.rows) :
    after.saved? row = db.saved? row := by
  rw [saved?, h.scopeOf?_of_later hafter hlater hrow hstays, saved?]

/-! ## Rows in the order of the saves -/

/-- The rows of the sessions stand in the order of their times, and for last saves of a log, in its
order. -/
structure Ordered (db : Database) (log : List Saved) (clock : Int64) : Prop where
  dated : Dated SessionRow.lastUpdated clock db.sessions.rows
  lastSaves : db.lastSaves.Sublist (Saved.latest log)

theorem ordered_new (start : Int64) : (Database.new start).Ordered [] clock := ⟨.nil, .slnil⟩

theorem Ordered.mono {later : Int64} (hordered : db.Ordered log clock) (hlater : clock ≤ later) :
    db.Ordered log later := ⟨hordered.dated.mono hlater, hordered.lastSaves⟩

theorem Ordered.of_sublist (hordered : db.Ordered log clock) (h : db.Sound) (hafter : after.Sound)
    (hlater : db.Later after) (hrows : after.sessions.rows.Sublist db.sessions.rows) :
    after.Ordered log clock := by
  constructor
  · exact hordered.dated.sublist hrows
  · have hsaves : after.lastSaves = after.sessions.rows.filterMap db.saved? :=
      List.filterMap_congr fun row hrow =>
        h.saved?_of_later hafter hlater (hrows.subset hrow) hrow
    rw [hsaves]
    exact (hrows.filterMap _).trans hordered.lastSaves

/-- The row of the session that is saved comes last, and stands for the save. -/
theorem Ordered.save (hordered : db.Ordered log clock) (h : db.Sound) (session : Session)
    (scope : Scope) :
    let after := (db.ensureScope scope).2.writeSession (db.ensureScope scope).1 session clock
    ∃ front row, after.sessions.rows = front ++ [row] ∧ row.lastUpdated = clock ∧
      after.saved? row = some ⟨session.id, scope⟩ ∧
      after.Ordered (log ++ [⟨session.id, scope⟩]) clock := by
  have hchanges := (db.ensureScope_changes scope).changes
  have hsessions := (db.ensureScope_changes scope).widens.sessions
  have hthere := hchanges.sound h
  obtain ⟨b, hb, r, hr, hid, howner, hscope⟩ := db.exists_ensureScope scope
  -- from here on the branch is there, and the sessions are those of before
  generalize (db.ensureScope scope).1 = branchId at *
  generalize (db.ensureScope scope).2 = there at *
  have hafter := hthere.writeSession session clock ⟨b, hb, hid⟩
  have hlater := hchanges.later.trans (Change.writeSession branchId session clock
    ⟨b, hb, hid⟩).later
  have hscopeOf := hafter.scopeOf?_eq hb hr howner
  let row := sessionRow branchId session clock (Write.nextSaveSeq there.sessions.rows)
  have hrows : (there.writeSession branchId session clock).sessions.rows =
      db.sessions.rows.filter (fun s => s.id != session.id) ++ [row] := by
    rw [← hsessions]
    rfl
  generalize there.writeSession branchId session clock = after at *
  have hrow : after.saved? row = some ⟨session.id, scope⟩ := by
    show (after.scopeOf? branchId).map _ = _
    rw [← hid, hscopeOf, hscope]
    rfl
  refine ⟨_, row, hrows, rfl, hrow, ?_, ?_⟩
  · rw [hrows]
    exact (hordered.dated.sublist List.filter_sublist).append rfl
  · -- an older row stands for the same save as before, since its branch is still there
    have hkept : (db.sessions.rows.filter fun s => s.id != session.id).filterMap after.saved? =
        db.lastSaves.filter (·.id != session.id) := by
      rw [← filterMap_saved?_filter]
      apply List.filterMap_congr
      intro s hs
      have hstays : s ∈ after.sessions.rows := by
        rw [hrows]
        exact List.mem_append_left _ hs
      exact h.saved?_of_later hafter hlater (List.mem_filter.mp hs).1 hstays
    rw [Database.lastSaves, hrows, List.filterMap_append, hkept, Saved.latest_append]
    simp only [List.filterMap_cons, hrow, List.filterMap_nil]
    exact (hordered.lastSaves.filter _).append (.refl _)

/-- The stored sessions in the order of the rows are those of the log. -/
theorem Ordered.lastSaves_eq (hordered : db.Ordered log clock) (h : db.Sound) :
    (Saved.latest log).filter (fun saved => db.sessions.rows.any fun row => row.id == saved.id) =
      db.lastSaves := by
  apply filter_eq_of_sublist hordered.lastSaves (Saved.latest_pairwise log)
  intro saved _
  rw [h.lastSaves_ids]
  simp

/-! ## Listings -/

theorem byRecency_filter (q : SessionRow → Bool) (rows : List SessionRow) :
    byRecency (rows.filter q) = (byRecency rows).filter q := by
  refine mergeSort_filter ?_ q rows
  apply IsOrder.latest (fun row => row.lastUpdated.toInt) SessionRow.saveSeq
  intro a b
  simp [recencyLe, ← Int64.toInt_inj]

/-- The sessions of a scope are put in order as they stand among all sessions. -/
theorem summariesIn_eq (db : Database) (scope : Scope) :
    db.summariesIn scope = db.summaries.filter fun summary => summary.scope == scope := by
  simp only [summariesIn, byRecency_filter]
  rw [summaries, List.filterMap_filter, List.filter_filterMap]
  congr 1
  funext row
  cases hscope : db.scopeOf? row.branchId with
  | none => simp [summary?, hscope]
  | some found => simp [summary?, hscope, Option.filter]

theorem Intact.listAllSessions_limited (h : db.Intact) (limit : Nat) :
    db.listAllSessions limit = .ok (limited limit db.summaries) := by
  simp only [listAllSessions, read, h.requireAll, ok_bind, mapError_ok]

theorem Intact.listSessions_limited (h : db.Intact) (scope : Scope) (limit : Nat) :
    db.listSessions scope limit =
      .ok (limited limit (db.summaries.filter fun summary => summary.scope == scope)) := by
  simp only [listSessions, read, h.requireAll, ok_bind, mapError_ok, summariesIn_eq]

theorem Intact.listAllSessions_eq (h : db.Intact) : db.listAllSessions 0 = .ok db.summaries :=
  h.listAllSessions_limited 0

theorem Intact.listSessions_eq (h : db.Intact) (scope : Scope) :
    db.listSessions scope 0 = .ok (db.summaries.filter fun summary => summary.scope == scope) :=
  h.listSessions_limited scope 0

/-- A listing turns the rows around. -/
theorem Sound.summaries_eq (h : db.Sound)
    (hdated : Dated SessionRow.lastUpdated clock db.sessions.rows) :
    db.summaries = db.sessions.rows.reverse.filterMap db.summary? := by
  rw [summaries, byRecency_eq_reverse hdated.ascending h.saves]

theorem Sound.summaries_saved (h : db.Sound)
    (hdated : Dated SessionRow.lastUpdated clock db.sessions.rows) :
    db.summaries.map SessionSummary.saved = db.lastSaves.reverse := by
  rw [h.summaries_eq hdated, List.map_filterMap, List.filterMap_reverse, lastSaves]
  simp only [map_saved_summary?]

/-! ## Retention by number -/

/-- What a listing shows of a session stays when others are removed. -/
theorem Sound.summary?_trimSessions (h : db.Sound) {keep : Nat} {row : SessionRow}
    (hstays : row ∈ (db.trimSessions keep).sessions.rows) :
    (db.trimSessions keep).summary? row = db.summary? row := by
  obtain ⟨p, htrimmed⟩ := db.exists_removeSessions_trim keep
  rw [htrimmed] at hstays ⊢
  obtain ⟨hrow, hp⟩ := List.mem_filter.mp hstays
  have hmessages := h.messagesOf_removeSessions hrow (by simpa using hp)
  rw [summary?, hmessages]
  rfl

section Trim

variable (h : db.Sound) (hdated : Dated SessionRow.lastUpdated clock db.sessions.rows)

include h hdated

theorem Sound.sessions_trimSessions {keep : Nat} (hkeep : keep ≠ 0) :
    (db.trimSessions keep).sessions.rows = db.sessions.rows.rtake keep := by
  rw [trimSessions, if_neg hkeep, byRecency_eq_reverse hdated.ascending h.saves]
  show db.sessions.rows.filter _ = _
  simp only [Bool.not_not]
  exact filter_contains_reverse h.sessionIds keep

theorem Sound.summaries_trimSessions {keep : Nat} (hkeep : keep ≠ 0) :
    (db.trimSessions keep).summaries = db.summaries.take keep := by
  have hafter := (db.trimSessions_changes keep).sound h
  have hrows := h.sessions_trimSessions hdated hkeep
  have hafterDated : Dated SessionRow.lastUpdated clock (db.trimSessions keep).sessions.rows := by
    rw [hrows]
    exact hdated.sublist (List.drop_sublist _ _)
  rw [hafter.summaries_eq hafterDated, h.summaries_eq hdated, hrows,
    List.rtake_eq_reverse_take_reverse, List.reverse_reverse, take_filterMap_of_isSome]
  · refine List.filterMap_congr fun row hrow => h.summary?_trimSessions ?_
    rw [hrows, List.rtake_eq_reverse_take_reverse]
    exact List.mem_reverse.mpr hrow
  · intro row hrow
    exact h.isSome_summary? (List.mem_reverse.mp hrow)

end Trim

/-! ## The session that was just saved -/

/-- The row of the session that was saved last, at a time of the clock. -/
structure Newest (db : Database) (row : SessionRow) (saved : Saved) (now : Int64) : Prop where
  last : ∃ front, db.sessions.rows = front ++ [row]
  saved : db.saved? row = some saved
  time : row.lastUpdated = now
  dated : Dated SessionRow.lastUpdated now db.sessions.rows

section Newest

variable {row : SessionRow} {saved : Saved} {now : Int64}

theorem Newest.mem (hnewest : db.Newest row saved now) : row ∈ db.sessions.rows := by
  obtain ⟨front, hrows⟩ := hnewest.last
  rw [hrows]
  exact List.mem_append_right _ (List.mem_singleton_self row)

/-- A session stays the one saved last for as long as its row stays and no row is added. -/
theorem Newest.of_filter (hnewest : db.Newest row saved now) (h : db.Sound) (hafter : after.Sound)
    (hlater : db.Later after) {p : SessionRow → Bool}
    (hrows : after.sessions.rows = db.sessions.rows.filter p) (hp : p row = true) :
    after.Newest row saved now := by
  have hstays : row ∈ after.sessions.rows := by
    rw [hrows]
    exact List.mem_filter.mpr ⟨hnewest.mem, hp⟩
  obtain ⟨front, hlast⟩ := hnewest.last
  refine ⟨⟨front.filter p, ?_⟩, ?_, hnewest.time, ?_⟩
  · rw [hrows, hlast, List.filter_append, List.filter_cons_of_pos hp, List.filter_nil]
  · rw [h.saved?_of_later hafter hlater hnewest.mem hstays]
    exact hnewest.saved
  · rw [hrows]
    exact hnewest.dated.sublist List.filter_sublist

/-- No session is too old at the time of its save. -/
theorem Newest.expireSessions (hnewest : db.Newest row saved now) (h : db.Sound) (days : Nat) :
    (db.expireSessions now days).Newest row saved now := by
  have hchanges := db.expireSessions_changes now days
  by_cases hdays : days = 0
  · rw [Database.expireSessions, if_pos hdays]
    exact hnewest
  · refine hnewest.of_filter (p := fun s => !decide (s.lastUpdated.toInt < ageCutoff now days)) h
      (hchanges.sound h) hchanges.later ?_ ?_
    · rw [Database.expireSessions, if_neg hdays]
      rfl
    · simp only [hnewest.time, ageCutoff, Time.secondsPerDay, Bool.not_eq_true',
        decide_eq_false_iff_not]
      omega

/-- The one saved last is among any number of those saved last. -/
theorem Newest.trimSessions (hnewest : db.Newest row saved now) (h : db.Sound) (keep : Nat) :
    (db.trimSessions keep).Newest row saved now := by
  have hchanges := db.trimSessions_changes keep
  by_cases hkeep : keep = 0
  · rw [Database.trimSessions, if_pos hkeep]
    exact hnewest
  · obtain ⟨front, hlast⟩ := hnewest.last
    obtain ⟨count, rfl⟩ := Nat.exists_eq_succ_of_ne_zero hkeep
    refine hnewest.of_filter (p := fun s => !!(((Database.byRecency db.sessions.rows).take
      (count + 1)).map SessionRow.id).contains s.id) h (hchanges.sound h) hchanges.later ?_ ?_
    · rw [Database.trimSessions, if_neg hkeep]
      rfl
    · rw [byRecency_eq_reverse hnewest.dated.ascending h.saves, hlast]
      simp

theorem Newest.exists_summaries (hnewest : db.Newest row saved now) (h : db.Sound) :
    ∃ first others, db.summaries = first :: others ∧ first.saved = saved := by
  obtain ⟨front, hlast⟩ := hnewest.last
  obtain ⟨first, hfirst⟩ := Option.isSome_iff_exists.mp (h.isSome_summary? hnewest.mem)
  refine ⟨first, front.reverse.filterMap db.summary?, ?_, ?_⟩
  · rw [h.summaries_eq hnewest.dated, hlast]
    simp [hfirst]
  · have hsaved := hnewest.saved
    rw [← map_saved_summary?, hfirst] at hsaved
    exact Option.some.inj hsaved

end Newest

end Store.Database

end SessionArchive
