import SessionArchive.Proofs.Store.Listing

/-!
# Sessions are listed by their saves

A save puts its session last in the order of the rows, and no other operation moves any. So
`Store.listing_play` says that after every run during which the clock does not go back a listing
shows the stored sessions with the one saved last first, that a retention pass by number keeps the
first ones, and that the session that was just saved stays through every retention pass of the same
second.
-/

set_option autoImplicit false

namespace SessionArchive

open Store (Database)

variable {db : Database} {log : List Saved} {now : Int64}

namespace Operation

/-- Whether an operation is a save. -/
def isSave : Operation → Bool
  | .saveSession .. => true
  | _ => false

/-- An operation that is no save only removes rows of sessions. -/
theorem Turns.sessions_sublist {operation : Operation} {after : Database}
    (hturns : operation.Turns now db after) (hquiet : operation.isSave = false) :
    after.sessions.rows.Sublist db.sessions.rows := by
  cases hturns with
  | beside _ hsides => rw [hsides.widens.sessions]
  | saveSession session scope => cases hquiet
  | deleteSession id => exact List.filter_sublist
  | deleteBranch id => exact List.filter_sublist
  | deleteRepository id => exact List.filter_sublist
  | cleanupSessions maxAgeDays maxSessions =>
    obtain ⟨p, q, hcleaned⟩ := db.exists_removeSessions_cleanup now maxAgeDays maxSessions
    rw [hcleaned]
    exact List.filter_sublist.trans List.filter_sublist

/-- Every operation, successful or not, keeps the rows in the order of the saves so far. -/
theorem run_ordered (h : db.Sound) (hordered : db.Ordered log now) (path : Option String)
    (operation : Operation) :
    ∃ after, (operation.run now ⟨path, some db⟩).2 = ⟨path, some after⟩ ∧ after.Sound ∧
      after.Ordered (log ++ (operation.saved? now ⟨path, some db⟩).toList) now := by
  obtain ⟨after, hrun, hturns⟩ := operation.run_turns h.toIntact path now
  have hsound := hturns.changes.sound h
  refine ⟨after, hrun, hsound, ?_⟩
  cases hsaves : operation.isSave with
  | false =>
    -- only a save is added to the log
    have hnone : operation.saved? now ⟨path, some db⟩ = none := by
      cases operation with
      | saveSession session scope => cases hsaves
      | _ => rfl
    rw [hnone, Option.toList_none, List.append_nil]
    exact hordered.of_sublist h hsound hturns.changes.later (hturns.sessions_sublist hsaves)
  | true =>
    cases operation with
    | saveSession session scope =>
      have hsave := Store.saveSession_intact h.toIntact path session scope now
      have hsaved : Operation.saved? now ⟨path, some db⟩ (.saveSession session scope) =
          some ⟨session.id, scope⟩ := by
        simp only [Operation.saved?, hsave]
      obtain ⟨_, _, _, _, _, hafter⟩ := hordered.save h session scope
      obtain rfl := Store.eq_of_left hrun (congrArg Prod.snd hsave)
      rw [hsaved]
      exact hafter
    | _ => cases hsaves

section Newest

variable {operation : Operation} {after : Database} {row : Store.SessionRow} {saved : Saved}
  {branch : Branch}

/-- The session saved last stays so through what an operation of the same second does, if it spares
the session and its branch. -/
theorem Turns.newest (hturns : operation.Turns now db after) (h : db.Sound)
    (hnewest : db.Newest row saved now) (hbranch : branch ∈ db.branches.rows)
    (howner : branch.id = row.branchId) (hspares : operation.spares row.id branch = true) :
    after.Newest row saved now := by
  have hsound := hturns.changes.sound h
  have hlater := hturns.changes.later
  cases hturns with
  | beside _ hsides =>
    refine hnewest.of_filter (p := fun _ => true) h hsound hlater ?_ rfl
    rw [hsides.widens.sessions, List.filter_eq_self.mpr fun _ _ => rfl]
  | saveSession session scope => cases hspares
  | deleteSession id =>
    have hid : id ≠ row.id := by simpa [spares] using hspares
    exact hnewest.of_filter h hsound hlater rfl (by simpa using hid.symm)
  | deleteBranch id =>
    have hid : id ≠ branch.id := by simpa [spares] using hspares
    refine hnewest.of_filter h hsound hlater rfl ?_
    beta_reduce
    rw [Bool.not_eq_true', Store.contains_map_filter_eq_any, List.any_eq_false, ← howner]
    intro other _
    simp only [Bool.and_eq_true, beq_iff_eq]
    exact fun ⟨hsame, hother⟩ => hid (hother.symm.trans hsame)
  | deleteRepository id =>
    have hid : id ≠ branch.repositoryId := by simpa [spares] using hspares
    refine hnewest.of_filter h hsound hlater rfl ?_
    beta_reduce
    rw [Bool.not_eq_true', Store.contains_map_filter_eq_any, List.any_eq_false, ← howner]
    intro other hother
    rw [Store.contains_map_filter_eq_any]
    simp only [Bool.and_eq_true, beq_iff_eq, List.any_eq_true, not_and, not_exists]
    -- the branch with that id is the one of the session
    rintro hsame repository _ hrepository rfl
    obtain rfl := h.branchIds.eq_of_id hother hbranch hsame
    exact hid hrepository
  -- the newest session is the last one that a limit would reach
  | cleanupSessions maxAgeDays maxSessions =>
    have hexpired := (db.expireSessions_changes now maxAgeDays).sound h
    exact (hnewest.expireSessions h maxAgeDays).trimSessions hexpired maxSessions

/-- Such an operation leaves the branch too, since the session is still there. -/
theorem run_newest (h : db.Sound) (hnewest : db.Newest row saved now)
    (hbranch : branch ∈ db.branches.rows) (howner : branch.id = row.branchId)
    (path : Option String) (hspares : operation.spares row.id branch = true) :
    ∃ after, (operation.run now ⟨path, some db⟩).2 = ⟨path, some after⟩ ∧ after.Sound ∧
      after.Newest row saved now ∧ branch ∈ after.branches.rows := by
  obtain ⟨after, hrun, hturns⟩ := operation.run_turns h.toIntact path now
  have hsound := hturns.changes.sound h
  have hstays := hturns.newest h hnewest hbranch howner hspares
  obtain ⟨other, hother, hid⟩ := hsound.sessionOwner row hstays.mem
  obtain rfl : other = branch :=
    hturns.changes.later.branches.eq_of_id h.branchIds hbranch hother (hid.trans howner.symm)
  exact ⟨after, hrun, hsound, hstays, hother⟩

end Newest

end Operation

namespace Store

/-- While the clock does not go back, the rows stay in the order of the saves. -/
theorem play_ordered {clock later : Int64} (h : db.Sound) (hordered : db.Ordered log clock)
    (path : Option String) (run : List (Int64 × Operation))
    (hclock : run.Pairwise fun a b => a.1 ≤ b.1) (hnow : ∀ step ∈ run, clock ≤ step.1)
    (hlater : clock ≤ later) (hlast : ∀ step ∈ run, step.1 ≤ later) :
    ∃ after, (Store.mk path (some db)).play run = ⟨path, some after⟩ ∧ after.Sound ∧
      after.Ordered (log ++ Store.saves ⟨path, some db⟩ run) later := by
  induction run generalizing db log clock with
  | nil =>
    refine ⟨db, rfl, h, ?_⟩
    rw [Store.saves, List.append_nil]
    exact hordered.mono hlater
  | cons step rest ih =>
    rcases step with ⟨now, operation⟩
    obtain ⟨hfirst, hrest⟩ := List.pairwise_cons.mp hclock
    obtain ⟨hnowFirst, _⟩ := List.forall_mem_cons.mp hnow
    obtain ⟨hlastFirst, hlastRest⟩ := List.forall_mem_cons.mp hlast
    obtain ⟨between, hrun, hbetween, hbetweenOrdered⟩ :=
      operation.run_ordered h (hordered.mono hnowFirst) path
    obtain ⟨after, hplay, hafter, hafterOrdered⟩ :=
      ih hbetween hbetweenOrdered hrest hfirst hlastFirst hlastRest
    refine ⟨after, ?_, hafter, ?_⟩
    · rw [Store.play, hrun]
      exact hplay
    · rw [Store.saves, hrun, ← List.append_assoc]
      exact hafterOrdered

/-- The session saved last stays so through a run within one second that spares it. -/
theorem play_newest {row : SessionRow} {saved : Saved} {branch : Branch} (h : db.Sound)
    (hnewest : db.Newest row saved now) (hbranch : branch ∈ db.branches.rows)
    (howner : branch.id = row.branchId) (path : Option String) (run : List (Int64 × Operation))
    (hspares : ∀ step ∈ run, step.1 = now ∧ step.2.spares row.id branch = true) :
    ∃ after, (Store.mk path (some db)).play run = ⟨path, some after⟩ ∧ after.Sound ∧
      after.Newest row saved now := by
  induction run generalizing db with
  | nil => exact ⟨db, rfl, h, hnewest⟩
  | cons step rest ih =>
    rcases step with ⟨now', operation⟩
    obtain ⟨⟨rfl, hspare⟩, hrest⟩ := List.forall_mem_cons.mp hspares
    obtain ⟨between, hrun, hbetween, hbetweenNewest, hstays⟩ :=
      Operation.run_newest h hnewest hbranch howner path hspare
    rw [Store.play, hrun]
    exact ih hbetween hbetweenNewest hstays hrest

/-- A session that is saved is listed first for as long as the clock stands still. -/
theorem exists_first_of_save (h : db.Sound) (hordered : db.Ordered log now) (path : Option String)
    (session : Session) (scope : Scope) :
    let saved := ((Store.mk path (some db)).saveSession session scope now).2
    ∃ branch, saved.findScope scope = .ok (some branch) ∧
      ∀ rest : List (Int64 × Operation),
        (∀ step ∈ rest, step.1 = now ∧ step.2.spares session.id branch = true) →
        ∃ first others, (saved.play rest).listAllSessions 0 = .ok (first :: others) ∧
          first.saved = ⟨session.id, scope⟩ := by
  have hsave := saveSession_intact h.toIntact path session scope now
  obtain ⟨after, hrun, hafter, _⟩ := (Operation.saveSession session scope).run_leaves h path now
  obtain rfl := Store.eq_of_left hrun (congrArg Prod.snd hsave)
  obtain ⟨front, row, hrows, htime, hsaved, hafterOrdered⟩ := hordered.save h session scope
  have hnewest := Database.Newest.mk ⟨front, hrows⟩ hsaved htime hafterOrdered.dated
  have hid : session.id = row.id := (Database.id_of_saved? hsaved).symm
  obtain ⟨branch, hbranch, howner, hscope⟩ := hafter.exists_findScope? hnewest.mem hsaved
  intro saved
  simp only [saved, hsave]
  refine ⟨branch, ?_, fun rest hspares => ?_⟩
  · exact (hafter.toIntact.findScope_eq scope).trans (congrArg Except.ok hscope)
  · rw [hid] at hspares
    obtain ⟨last, hplay, hlast, hlastNewest⟩ :=
      play_newest hafter hnewest hbranch howner path rest hspares
    obtain ⟨first, others, hsummaries, hfirst⟩ := hlastNewest.exists_summaries hlast
    refine ⟨first, others, ?_, hfirst⟩
    rw [hplay, ← hsummaries]
    exact hlast.toIntact.listAllSessions_eq

/-- After every run of operations on a store that was empty, during which the clock does not go
back, a listing shows the stored sessions with the one saved last first, and so does the listing of
a scope. A retention pass by number keeps the first ones. And a session that is saved then is the
first one for as long as the clock stands still, whatever retention passes there are, if no other
is saved and neither it nor its branch nor the repository of that branch is deleted. -/
theorem listing_play (path : Option String) (start : Int64) (run : List (Int64 × Operation))
    (hclock : run.Pairwise fun a b => a.1 ≤ b.1) :
    let store := (Store.fresh path start).play run
    let recent := store.recent ((Store.fresh path start).saves run)
    ∃ all, store.listAllSessions 0 = .ok all ∧ all.map SessionSummary.saved = recent ∧
      (∀ scope, ∃ some, store.listSessions scope 0 = .ok some ∧
        some.map SessionSummary.saved = recent.filter (·.scope == scope)) ∧
      (∀ now keep, 1 ≤ keep → ∃ report after,
        store.cleanupSessions 0 keep now = (.ok report, after) ∧
          after.listAllSessions 0 = .ok (all.take keep)) ∧
      (∀ now session scope, (∀ step ∈ run, step.1 ≤ now) →
        let saved := (store.saveSession session scope now).2
        ∃ branch, saved.findScope scope = .ok (some branch) ∧
          ∀ rest : List (Int64 × Operation),
            (∀ step ∈ rest, step.1 = now ∧ step.2.spares session.id branch = true) →
            ∃ first others, (saved.play rest).listAllSessions 0 = .ok (first :: others) ∧
              first.saved = ⟨session.id, scope⟩) := by
  have hempty : (Database.new start).Ordered [] Int64.minValue := Database.ordered_new start
  have hplayed : ∀ later, (∀ step ∈ run, step.1 ≤ later) → ∃ db,
      (Store.fresh path start).play run = ⟨path, some db⟩ ∧ db.Sound ∧
        db.Ordered ((Store.fresh path start).saves run) later := fun later =>
    play_ordered (Database.sound_new start) hempty path run hclock
      (fun step _ => Int64.minValue_le step.1) (Int64.minValue_le later)
  obtain ⟨db, hplay, h, hordered⟩ := hplayed Int64.maxValue fun step _ => Int64.le_maxValue step.1
  have hrecent : Store.recent ⟨path, some db⟩ ((Store.fresh path start).saves run) =
      db.summaries.map SessionSummary.saved := by
    rw [h.summaries_saved hordered.dated, ← hordered.lastSaves_eq h, Store.recent,
      List.filter_reverse]
    rfl
  have hall : Store.listAllSessions ⟨path, some db⟩ 0 = .ok db.summaries :=
    h.toIntact.listAllSessions_eq
  intro store recent
  simp only [store, recent, hplay, hrecent]
  refine ⟨db.summaries, hall, rfl, ?_, ?_, ?_⟩
  · intro scope
    refine ⟨_, h.toIntact.listSessions_eq scope, ?_⟩
    rw [List.filter_map]
    rfl
  · intro now keep hkeep
    have hafter := (db.trimSessions_changes keep).sound h
    refine ⟨_, _, cleanupSessions_intact h.toIntact path 0 keep now, ?_⟩
    refine hafter.toIntact.listAllSessions_eq.trans ?_
    rw [h.summaries_trimSessions hordered.dated (Nat.ne_of_gt hkeep)]
  · intro now session scope hlast
    -- the rows are in order at the time of the save too
    obtain ⟨other, hother, _, horderedNow⟩ := hplayed now hlast
    obtain rfl := Store.eq_of_left hplay hother
    exact exists_first_of_save h horderedNow path session scope

/-- Two sessions are saved within one second, the first of them once more under another branch, and
a third one later. The branch that the first one moved to has the id 2. -/
def resavedRun : List (Int64 × Operation) :=
  [(5, .saveSession ⟨"s", 1, 1, "", "p", "m", "/", [.ofText .user "a" 1]⟩ ⟨"h", "o", "p", "main"⟩),
    (5, .saveSession ⟨"t", 1, 1, "", "p", "m", "/", []⟩ ⟨"h", "o", "p", "main"⟩),
    (5, .saveSession ⟨"s", 1, 5, "", "p", "m", "/", []⟩ ⟨"h", "o", "p", "dev"⟩),
    (7, .saveSession ⟨"u", 6, 6, "", "p", "m", "/", []⟩ ⟨"h", "o", "p", "main"⟩)]

theorem listing_play_resavedRun :
    let store := (Store.fresh none 0).play resavedRun
    (resavedRun.Pairwise fun a b => a.1 ≤ b.1) ∧
      ∃ all, store.listAllSessions 0 = .ok all ∧
        all.map SessionSummary.saved = [⟨"u", ⟨"h", "o", "p", "main"⟩⟩,
          ⟨"s", ⟨"h", "o", "p", "dev"⟩⟩, ⟨"t", ⟨"h", "o", "p", "main"⟩⟩] ∧
        (∃ report after, store.cleanupSessions 0 2 7 = (.ok report, after) ∧
          after.listAllSessions 0 = .ok (all.take 2)) ∧
        ∃ first others, ((store.saveSession ⟨"t", 1, 5, "", "p", "m", "/", []⟩
            ⟨"h", "o", "p", "main"⟩ 7).2.play
              [(7, .deleteBranch 2), (7, .cleanupSessions 0 1)]).listAllSessions 0 =
          .ok (first :: others) ∧ first.saved = ⟨"t", ⟨"h", "o", "p", "main"⟩⟩ := by
  have hclock : resavedRun.Pairwise fun a b => a.1 ≤ b.1 := by decide
  have hrecent : ((Store.fresh none 0).play resavedRun).recent
      ((Store.fresh none 0).saves resavedRun) = [⟨"u", ⟨"h", "o", "p", "main"⟩⟩,
        ⟨"s", ⟨"h", "o", "p", "dev"⟩⟩, ⟨"t", ⟨"h", "o", "p", "main"⟩⟩] := by decide +kernel
  obtain ⟨all, hall, hsaved, _, hretention, hsurvives⟩ := listing_play none 0 resavedRun hclock
  rw [hrecent] at hsaved
  refine ⟨hclock, all, hall, hsaved, hretention 7 2 (by decide), ?_⟩
  obtain ⟨branch, hbranch, hfirst⟩ := hsurvives 7 ⟨"t", 1, 5, "", "p", "m", "/", []⟩
    ⟨"h", "o", "p", "main"⟩ (by decide)
  have hmain : (((Store.fresh none 0).play resavedRun).saveSession
      ⟨"t", 1, 5, "", "p", "m", "/", []⟩ ⟨"h", "o", "p", "main"⟩ 7).2.findScope
        ⟨"h", "o", "p", "main"⟩ = .ok (some ⟨1, 1, "main"⟩) := by decide +kernel
  rw [hmain] at hbranch
  obtain rfl := Option.some.inj (Except.ok.inj hbranch)
  exact hfirst _ (by decide)

end Store

end SessionArchive
