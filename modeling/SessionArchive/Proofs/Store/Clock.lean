import Mathlib.Data.List.DropRight
import SessionArchive.Proofs.Store.Sorting
import SessionArchive.Proofs.Store.Sound

/-!
# Rows in the order of the clock

While the clock does not go back, new rows come at the end of a table and are no older than the rows
before them: the rows are `Dated`. Those of one second are told apart by a number that ascends, so
that to sort by time and number, latest first, is to turn the rows around
(`mergeSort_eq_reverse`), and the latest rows are the last ones.
-/

set_option autoImplicit false

namespace SessionArchive.Store

/-- Rows stand in the order of their times, none of which is after the clock. -/
structure Dated {α : Type} (time : α → Int64) (clock : Int64) (rows : List α) : Prop where
  ascending : rows.Pairwise fun a b => time a ≤ time b
  past : ∀ row ∈ rows, time row ≤ clock

namespace Dated

variable {α : Type} {time : α → Int64} {clock later : Int64} {rows : List α}

theorem nil : Dated time clock [] := ⟨.nil, nofun⟩

theorem mono (h : Dated time clock rows) (hlater : clock ≤ later) : Dated time later rows :=
  ⟨h.ascending, fun row hrow => Int64.le_trans (h.past row hrow) hlater⟩

theorem sublist {some : List α} (h : Dated time clock rows) (hsome : some.Sublist rows) :
    Dated time clock some :=
  ⟨h.ascending.sublist hsome, fun row hrow => h.past row (hsome.subset hrow)⟩

/-- A row of the present second may follow. -/
theorem append (h : Dated time clock rows) {row : α} (htime : time row = clock) :
    Dated time clock (rows ++ [row]) := by
  constructor
  · apply List.pairwise_append.mpr
    refine ⟨h.ascending, List.pairwise_singleton _ _, ?_⟩
    intro a ha b hb
    rw [List.mem_singleton.mp hb, htime]
    exact h.past a ha
  · intro other hother
    rcases List.mem_append.mp hother with hother | hother
    · exact h.past other hother
    · rw [List.mem_singleton.mp hother, htime]
      exact Int64.le_refl _

end Dated

/-! ## The latest first -/

section Sorting

variable {α : Type} {le : α → α → Bool} {time : α → Int64} {number : α → Int} {rows : List α}

/-- To put the latest first is to turn rows around that stand in the order of time and number. -/
theorem mergeSort_eq_reverse
    (hle : ∀ a b, le a b = true ↔ (time b).toInt < (time a).toInt ∨
      (time a).toInt = (time b).toInt ∧ number b ≤ number a)
    (htimes : rows.Pairwise fun a b => time a ≤ time b)
    (hnumbers : rows.Pairwise fun a b => number a < number b) :
    rows.mergeSort le = rows.reverse := by
  have hsorted := pairwise_mergeSort_latest (fun a _ b _ => hle a b) (hnumbers.imp Int.ne_of_lt)
  -- turned around, the rows descend by time and number as well
  have hreverse : rows.reverse.Pairwise fun a b => (time b).toInt < (time a).toInt ∨
      (time a).toInt = (time b).toInt ∧ number b < number a := by
    apply List.pairwise_reverse.mpr
    apply (htimes.and hnumbers).imp
    intro a b hab
    have htime := Int64.le_iff_toInt_le.mp hab.1
    have hnumber := hab.2
    omega
  have hperm := (List.mergeSort_perm rows le).trans (List.reverse_perm rows).symm
  refine List.Perm.eq_of_pairwise (fun a b _ _ hab hba => ?_) hsorted hreverse hperm
  omega

section Keys

variable {κ : Type} [BEq κ] [LawfulBEq κ] {key : α → κ}

/-- Where rows are told apart by keys, those whose keys are among the first ones of the rows turned
around are the last ones. -/
theorem filter_contains_reverse (hkeys : rows.Pairwise fun a b => key a ≠ key b) (count : Nat) :
    rows.filter (fun row => ((rows.reverse.take count).map key).contains (key row)) =
      rows.rtake count := by
  refine filter_contains_of_sublist ?_ (List.drop_sublist _ _) hkeys
  rw [List.take_reverse]
  exact List.reverse_perm _

end Keys

end Sorting

theorem latestFirst_eq_reverse {entries : List HistoryEntry}
    (htimes : entries.Pairwise fun a b => a.timestamp ≤ b.timestamp)
    (hids : entries.Pairwise fun a b => a.id < b.id) : latestFirst entries = entries.reverse := by
  refine mergeSort_eq_reverse (fun a b => ?_) htimes hids
  simp [historyLe, ← Int64.toInt_inj, @eq_comm Int a.timestamp.toInt]

theorem byRecency_eq_reverse {rows : List SessionRow}
    (htimes : rows.Pairwise fun a b => a.lastUpdated ≤ b.lastUpdated)
    (hsaves : rows.Pairwise fun a b => a.saveSeq < b.saveSeq) :
    Database.byRecency rows = rows.reverse := by
  refine mergeSort_eq_reverse (fun a b => ?_) htimes hsaves
  simp [Database.recencyLe, ← Int64.toInt_inj]

end SessionArchive.Store
