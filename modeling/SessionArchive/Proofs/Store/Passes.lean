import SessionArchive.Proofs.Store.Window

/-!
# The two passes of retention

The pass by age and the pass by number do not depend on one another: `Store.cleanupSessions_passes`
says that one after the other, in either order, they leave the rows that one call with both limits
leaves, and count as many sessions. The listing is in the order of the saves, so the sessions of
some days are its front part, and to take a front part of a front part is the same in either order
(`withinDays_limited`).
-/

set_option autoImplicit false

namespace SessionArchive

open Store (Database withinDays)
open Store.Database (limited)

/-! ## Front parts of a list -/

/-- Where what comes earlier has a property whenever what comes later has it, those that have it are
a front part, and a number of the first ones may be taken before or after they are chosen. -/
theorem filter_take_of_front {α : Type} {p : α → Bool} {l : List α}
    (hfront : l.Pairwise fun a b => p b = true → p a = true) (count : Nat) :
    (l.take count).filter p = (l.filter p).take count := by
  induction l generalizing count with
  | nil => simp
  | cons first rest ih =>
    obtain ⟨hfirst, hrest⟩ := List.pairwise_cons.mp hfront
    cases count with
    | zero => simp
    | succ count =>
      cases hp : p first with
      | true =>
        rw [List.take_succ_cons, List.filter_cons_of_pos hp, List.filter_cons_of_pos hp,
          List.take_succ_cons, ih hrest]
      | false =>
        -- what comes after has the property no more than the first one does
        have hnone : ∀ other ∈ first :: rest, ¬p other = true := by
          intro other hother hpOther
          rcases List.mem_cons.mp hother with rfl | hmem
          · rw [hp] at hpOther
            cases hpOther
          · rw [hfirst other hmem hpOther] at hp
            cases hp
        have htaken : ∀ other ∈ (first :: rest).take (count + 1), ¬p other = true :=
          fun other hother => hnone other (List.mem_of_mem_take hother)
        rw [List.filter_eq_nil_iff.mpr hnone, List.filter_eq_nil_iff.mpr htaken, List.take_nil]

/-! ## Limits -/

/-- A limit is no stricter than another one; zero is no limit. -/
def NoStricter (limit other : Nat) : Prop := limit = 0 ∨ 0 < other ∧ other ≤ limit

section Days

variable {α : Type} {time : α → Int64} {now : Int64} {days limit : Nat} {all : List α}

/-- Of what has the latest first, that of some days may be chosen before or after a number of the
first ones is taken. -/
theorem withinDays_limited (hlatest : all.Pairwise fun a b => time b ≤ time a) (now : Int64)
    (days keep : Nat) :
    withinDays time now days (limited keep all) = limited keep (withinDays time now days all) := by
  by_cases hdays : days = 0
  · simp only [withinDays, if_pos hdays]
  by_cases hkeep : keep = 0
  · simp only [limited, if_pos hkeep]
  simp only [withinDays, limited, if_neg hdays, if_neg hkeep]
  refine filter_take_of_front (hlatest.imp ?_) keep
  intro a b hle
  have hle := Int64.le_iff_toInt_le.mp hle
  simp only [decide_eq_true_eq]
  omega

/-- What is of some days is also of as many days or more. -/
theorem withinDays_of_noStricter (hlimit : NoStricter limit days) {left : List α}
    (hleft : left ⊆ withinDays time now days all) : withinDays time now limit left = left := by
  by_cases hnone : limit = 0
  · rw [withinDays, if_pos hnone]
  · obtain ⟨hpos, hle⟩ := hlimit.resolve_left hnone
    rw [withinDays, if_neg hnone, List.filter_eq_self]
    intro a ha
    have hmem := hleft ha
    rw [withinDays, if_neg (Nat.ne_of_gt hpos)] at hmem
    have hrecent := (List.mem_filter.mp hmem).2
    simp only [decide_eq_true_eq] at hrecent ⊢
    omega

end Days

theorem limited_zero {α : Type} (l : List α) : limited 0 l = l := if_pos rfl

theorem limited_of_noStricter {α : Type} {keep limit : Nat} (hlimit : NoStricter limit keep)
    (l : List α) : limited limit (limited keep l) = limited keep l := by
  by_cases hnone : limit = 0
  · rw [limited, if_pos hnone]
  · obtain ⟨hpos, hle⟩ := hlimit.resolve_left hnone
    have hkeep : keep ≠ 0 := Nat.ne_of_gt hpos
    rw [limited, limited, if_neg hnone, if_neg hkeep, List.take_take, Nat.min_eq_right hle]

namespace Store

/-! ## One pass after the other -/

theorem Database.Sound.pairwise_lastUpdated {db : Database} (h : db.Sound) :
    db.summaries.Pairwise fun a b => b.lastUpdated ≤ a.lastUpdated := by
  have htimes : db.summaries.map SessionSummary.lastUpdated =
      (Database.byRecency db.sessions.rows).map SessionRow.lastUpdated :=
    h.map_summaries fun _ _ hsummary => (Database.summary?_fields hsummary).2.1
  rw [← List.pairwise_map (R := fun a b => b ≤ a), htimes, List.pairwise_map]
  apply h.pairwise_byRecency.imp
  rintro a b (hlater | ⟨hsame, _⟩)
  · exact Int64.le_of_lt hlater
  · rw [hsame]
    exact Int64.le_refl _

/-- A store with the sessions of a part of a listing, and no other sessions. -/
def Database.storeKeeping (db : Database) (path : Option String) (left : List SessionSummary) :
    Store :=
  ⟨path, some (db.keepSessions (left.map SessionSummary.id))⟩

theorem Database.Sound.listAllSessions_storeKeeping {db : Database} (h : db.Sound)
    (path : Option String) {left : List SessionSummary} (hleft : left.Sublist db.summaries) :
    (db.storeKeeping path left).listAllSessions 0 = .ok left := by
  show Database.listAllSessions _ 0 = _
  rw [(h.keepSessions _).toIntact.listAllSessions_eq, h.summaries_keepSessions hleft]

/-- A pass over the sessions of a part of the listing leaves a part of that part. -/
theorem cleanupSessions_storeKeeping {db : Database} (h : db.Sound) (path : Option String)
    (maxAgeDays maxSessions : Nat) (now : Int64) {left fresh kept : List SessionSummary}
    (hleft : left.Sublist db.summaries)
    (hfresh : withinDays SessionSummary.lastUpdated now maxAgeDays left = fresh)
    (hkept : limited maxSessions fresh = kept) :
    (db.storeKeeping path left).cleanupSessions maxAgeDays maxSessions now =
      (.ok ⟨left.length - fresh.length, fresh.length - kept.length⟩,
        db.storeKeeping path kept) := by
  have hsublist : kept.Sublist left := by
    rw [← hkept, ← hfresh]
    exact (Database.limited_sublist _ _).trans (withinDays_sublist _ _ _ _)
  have hcleanup := cleanupSessions_sound (h.keepSessions (left.map SessionSummary.id)) path
    maxAgeDays maxSessions now
  dsimp only at hcleanup
  rw [h.summaries_keepSessions hleft, hfresh, hkept] at hcleanup
  rw [Database.storeKeeping, hcleanup,
    Database.keepSessions_keepSessions db (hsublist.map _).subset, Database.storeKeeping]

/-- After every run one pass of retention after the other, in either order, leaves the same rows as
both at once and removes as many sessions; and then a pass whose limits are no stricter removes
nothing. -/
theorem cleanupSessions_passes (path : Option String) (start : Int64)
    (run : List (Int64 × Operation)) (maxAgeDays maxSessions : Nat) (now : Int64) :
    let store := (Store.fresh path start).play run
    let both := store.cleanupSessions maxAgeDays maxSessions now
    let byAge := store.cleanupSessions maxAgeDays 0 now
    let thenByNumber := byAge.2.cleanupSessions 0 maxSessions now
    let byNumber := store.cleanupSessions 0 maxSessions now
    let thenByAge := byNumber.2.cleanupSessions maxAgeDays 0 now
    ∃ all left, store.listAllSessions 0 = .ok all ∧ both.2.listAllSessions 0 = .ok left ∧
      (∃ report first second third fourth, both.1 = .ok report ∧
        byAge.1 = .ok first ∧ thenByNumber.1 = .ok second ∧
        byNumber.1 = .ok third ∧ thenByAge.1 = .ok fourth ∧
        report.total + left.length = all.length ∧
        first.total + second.total = report.total ∧ third.total + fourth.total = report.total) ∧
      thenByNumber.2 = both.2 ∧ thenByAge.2 = both.2 ∧
      ∀ days sessions, NoStricter days maxAgeDays → NoStricter sessions maxSessions →
        both.2.cleanupSessions days sessions now = (.ok ⟨0, 0⟩, both.2) := by
  obtain ⟨db, hplay, h⟩ := play_sound path start run
  let all := db.summaries
  let fresh := withinDays SessionSummary.lastUpdated now maxAgeDays all
  let front := limited maxSessions all
  let left := limited maxSessions fresh
  have hfresh : fresh.Sublist all := withinDays_sublist _ _ _ _
  have hfront : front.Sublist all := Database.limited_sublist _ _
  have hleft : left.Sublist fresh := Database.limited_sublist _ _
  have hcommute : withinDays SessionSummary.lastUpdated now maxAgeDays front = left :=
    withinDays_limited h.pairwise_lastUpdated now maxAgeDays maxSessions
  have hleftFront : left.Sublist front := by
    rw [← hcommute]
    exact withinDays_sublist _ _ _ _
  have hstore : (Store.fresh path start).play run = db.storeKeeping path all := by
    rw [hplay, Database.storeKeeping, h.keepSessions_summaries]
  rw [hstore]
  -- what each of the calls answers and leaves
  have hboth : (db.storeKeeping path all).cleanupSessions maxAgeDays maxSessions now =
      (.ok ⟨all.length - fresh.length, fresh.length - left.length⟩, db.storeKeeping path left) :=
    cleanupSessions_storeKeeping h path _ _ now (.refl all) rfl rfl
  have hbyAge : (db.storeKeeping path all).cleanupSessions maxAgeDays 0 now =
      (.ok ⟨all.length - fresh.length, fresh.length - fresh.length⟩,
        db.storeKeeping path fresh) :=
    cleanupSessions_storeKeeping h path _ _ now (.refl all) rfl (limited_zero fresh)
  have hthenByNumber : (db.storeKeeping path fresh).cleanupSessions 0 maxSessions now =
      (.ok ⟨fresh.length - fresh.length, fresh.length - left.length⟩,
        db.storeKeeping path left) :=
    cleanupSessions_storeKeeping h path _ _ now hfresh (withinDays_zero _ _ _) rfl
  have hbyNumber : (db.storeKeeping path all).cleanupSessions 0 maxSessions now =
      (.ok ⟨all.length - all.length, all.length - front.length⟩, db.storeKeeping path front) :=
    cleanupSessions_storeKeeping h path _ _ now (.refl all) (withinDays_zero _ _ _) rfl
  have hthenByAge : (db.storeKeeping path front).cleanupSessions maxAgeDays 0 now =
      (.ok ⟨front.length - left.length, left.length - left.length⟩,
        db.storeKeeping path left) :=
    cleanupSessions_storeKeeping h path _ _ now hfront hcommute (limited_zero left)
  have hlengths := hfresh.length_le
  have hlengthsFront := hfront.length_le
  have hlengthsLeft := hleft.length_le
  have hlengthsLeftFront := hleftFront.length_le
  simp only [hboth, hbyAge, hbyNumber, hthenByNumber, hthenByAge]
  refine ⟨all, left, ?_, ?_, ⟨_, _, _, _, _, rfl, rfl, rfl, rfl, rfl, ?_⟩, trivial, trivial, ?_⟩
  · exact h.listAllSessions_storeKeeping path (.refl all)
  · exact h.listAllSessions_storeKeeping path (hleft.trans hfresh)
  · simp only [CleanupReport.total]
    omega
  · intro days sessions hdays hsessions
    have hpass := cleanupSessions_storeKeeping h path days sessions now (hleft.trans hfresh)
      (withinDays_of_noStricter hdays hleft.subset)
      (limited_of_noStricter hsessions fresh)
    rwa [Nat.sub_self] at hpass

/-- A run whose clock goes back, so that the session saved first is the latest one. -/
def backwardRun : List (Int64 × Operation) :=
  [(200000, .saveSession ⟨"s", 1, 1, "", "p", "m", "/", [.ofText .user "a" 1]⟩
      ⟨"h", "o", "p", "main"⟩),
    (90000, .saveSession ⟨"t", 1, 1, "", "p", "m", "/", []⟩ ⟨"h", "o", "p", "dev"⟩),
    (5, .saveSession ⟨"u", 1, 1, "", "p", "m", "/", []⟩ ⟨"h", "o", "p", "main"⟩)]

/-- With limits of a day and one session, a pass with two days and no other limit comes too late. -/
theorem cleanupSessions_passes_backwardRun :
    let both := ((Store.fresh none 0).play backwardRun).cleanupSessions 1 1 90000
    NoStricter 2 1 ∧ NoStricter 0 1 ∧
      both.2.cleanupSessions 2 0 90000 = (.ok ⟨0, 0⟩, both.2) := by
  have hdays : NoStricter 2 1 := .inr ⟨by decide, by decide⟩
  have hsessions : NoStricter 0 1 := .inl rfl
  obtain ⟨_, _, _, _, _, _, _, hagain⟩ := cleanupSessions_passes none 0 backwardRun 1 1 90000
  exact ⟨hdays, hsessions, hagain 2 0 hdays hsessions⟩

end Store

end SessionArchive
