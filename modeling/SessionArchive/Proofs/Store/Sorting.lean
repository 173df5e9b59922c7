import Mathlib.Data.List.Basic
import Mathlib.Data.Prod.Lex

/-!
# Sorted rows

Sorting puts rows in order, and strictly so where no two of them are the same to the order. Rows
that are sorted by time and number, the latest first, are told apart by their numbers. Rows that are
the same to the order stay as they were, so that to sort what was chosen is to choose from what was
sorted (`mergeSort_filter`), and the place of a row is the number of rows before it. `withinDays`
chooses by the time of the rows.
-/

set_option autoImplicit false

namespace SessionArchive.Store

section Sorted

variable {α : Type} {le : α → α → Bool} {rows : List α}

/-- A comparison that says of any two rows which comes first, or that they are the same to it. -/
structure IsOrder (le : α → α → Bool) : Prop where
  trans : ∀ a b c, le a b = true → le b c = true → le a c = true
  total : ∀ a b, (le a b || le b a) = true

/-- Rows are compared by keys. -/
theorem IsOrder.of_key {κ : Type} [LinearOrder κ] (key : α → κ)
    (h : ∀ a b, le a b = true ↔ key a ≤ key b) : IsOrder le where
  trans a b c hab hbc := (h a c).mpr (le_trans ((h a b).mp hab) ((h b c).mp hbc))
  total a b := by
    rw [Bool.or_eq_true, h, h]
    exact le_total _ _

/-- Rows are compared by time and number, the greatest first. -/
theorem IsOrder.latest (time number : α → Int)
    (h : ∀ a b, le a b = true ↔ time b < time a ∨ time a = time b ∧ number b ≤ number a) :
    IsOrder le := by
  refine .of_key (fun a => toLex (-time a, -number a)) fun a b => ?_
  rw [h, Prod.Lex.toLex_le_toLex]
  dsimp only
  omega

/-- What is sorted is strictly in order where no two rows are the same. -/
theorem pairwise_mergeSort_of_distinct {S R : α → α → Prop} (h : IsOrder le)
    (hsymm : ∀ a b, S a b → S b a) (hdistinct : rows.Pairwise fun a b => ¬S a b)
    (hstrict : ∀ a b, le a b = true → ¬S a b → R a b) : (rows.mergeSort le).Pairwise R := by
  have hsorted := List.pairwise_mergeSort h.trans h.total rows
  have hstill : (rows.mergeSort le).Pairwise fun a b => ¬S a b :=
    ((List.mergeSort_perm rows le).pairwise_iff fun {a b} hne hsame => hne (hsymm b a hsame)).mpr
      hdistinct
  exact hsorted.imp₂ hstrict hstill

/-- A row parts the others, once they are sorted, into those before it and those after it, and it is
sorted between them. -/
theorem mergeSort_cons_eq (h : IsOrder le) (a : α) (rows : List α) :
    rows.mergeSort le =
        (rows.mergeSort le).filter (fun b => !le a b) ++ (rows.mergeSort le).filter (le a) ∧
      (a :: rows).mergeSort le =
        (rows.mergeSort le).filter (fun b => !le a b) ++
          a :: (rows.mergeSort le).filter (le a) := by
  obtain ⟨before, after, hall, hrest, hbefore⟩ := List.mergeSort_cons h.trans h.total a rows
  have hsorted := List.pairwise_mergeSort h.trans h.total (a :: rows)
  rw [hall, List.pairwise_append, List.pairwise_cons] at hsorted
  obtain ⟨-, ⟨hafter, -⟩, -⟩ := hsorted
  have hfront : (before ++ after).filter (fun b => !le a b) = before := by
    rw [List.filter_append, List.filter_eq_self.mpr hbefore,
      List.filter_eq_nil_iff.mpr fun b hb => by simp [hafter b hb], List.append_nil]
  have hback : (before ++ after).filter (le a) = after := by
    rw [List.filter_append, List.filter_eq_self.mpr hafter,
      List.filter_eq_nil_iff.mpr fun b hb => by simpa using hbefore b hb, List.nil_append]
  rw [hall, hrest, hfront, hback]
  exact ⟨rfl, rfl⟩

/-- To sort what was chosen is to choose from what was sorted. -/
theorem mergeSort_filter (h : IsOrder le) (p : α → Bool) (rows : List α) :
    (rows.filter p).mergeSort le = (rows.mergeSort le).filter p := by
  induction rows with
  | nil => simp
  | cons a rows ih =>
    obtain ⟨hparts, hall⟩ := mergeSort_cons_eq h a rows
    cases hp : p a with
    | true =>
      obtain ⟨-, hchosen⟩ := mergeSort_cons_eq h a (rows.filter p)
      rw [List.filter_cons_of_pos hp, hchosen, ih, hall, List.filter_append,
        List.filter_cons_of_pos hp]
      simp only [List.filter_filter, Bool.and_comm]
    | false =>
      -- without the row, what is before it and what is after it are all that was sorted
      have hnot : ¬p a = true := by simp [hp]
      rw [List.filter_cons_of_neg hnot, ih, hall, List.filter_append,
        List.filter_cons_of_neg hnot, ← List.filter_append, ← hparts]

/-- Rows in the order of time and number, the greatest first, descend by both. -/
theorem pairwise_mergeSort_latest {time number : α → Int}
    (hle : ∀ a ∈ rows, ∀ b ∈ rows, le a b = true ↔
      time b < time a ∨ time a = time b ∧ number b ≤ number a)
    (hnumbers : rows.Pairwise fun a b => number a ≠ number b) :
    (rows.mergeSort le).Pairwise fun a b =>
      time b < time a ∨ time a = time b ∧ number b < number a := by
  let latest : α → α → Bool := fun a b =>
    decide (time b < time a ∨ time a = time b ∧ number b ≤ number a)
  -- on the rows the order is the one of the two keys, which is total everywhere
  have hsame : rows.mergeSort le = rows.mergeSort latest := by
    have hmap := List.map_mergeSort (r := le) (s := latest) (f := id) (l := rows)
      fun a ha b hb => by
      rw [Bool.eq_iff_iff, hle a ha b hb, decide_eq_true_iff]
      rfl
    rwa [List.map_id, List.map_id] at hmap
  rw [hsame]
  refine pairwise_mergeSort_of_distinct (S := fun a b => number a = number b)
    (.latest time number fun a b => decide_eq_true_iff) (fun _ _ => Eq.symm) hnumbers ?_
  intro a b hab hne
  simp only [latest, decide_eq_true_iff] at hab
  omega

end Sorted

/-! ## Choosing rows -/

section Chosen

variable {α κ : Type} {rows : List α}

/-- Where elements are told apart by keys, a sublist consists of those whose keys it has. -/
theorem filter_eq_of_sublist {key : α → κ} {p : α → Bool} {some all : List α}
    (hsublist : some.Sublist all) (hkeys : all.Pairwise fun a b => key a ≠ key b)
    (hp : ∀ a ∈ all, p a = true ↔ key a ∈ some.map key) : all.filter p = some := by
  induction hsublist with
  | slnil => rfl
  | @cons some all a hsublist ih =>
    obtain ⟨hfirst, hrest⟩ := List.pairwise_cons.mp hkeys
    obtain ⟨hpFirst, hpRest⟩ := List.forall_mem_cons.mp hp
    -- the key of an element that is left out is not one of the sublist
    have hout : ¬p a = true := by
      rw [hpFirst]
      intro hmem
      obtain ⟨b, hb, hkey⟩ := List.mem_map.mp hmem
      exact hfirst b (hsublist.subset hb) hkey.symm
    rw [List.filter_cons_of_neg hout]
    exact ih hrest hpRest
  | @cons_cons some all a hsublist ih =>
    obtain ⟨hfirst, hrest⟩ := List.pairwise_cons.mp hkeys
    obtain ⟨hpFirst, hpRest⟩ := List.forall_mem_cons.mp hp
    rw [List.filter_cons_of_pos (hpFirst.mpr List.mem_cons_self)]
    congr 1
    apply ih hrest
    intro b hb
    rw [hpRest b hb, List.map_cons, List.mem_cons]
    simp [(hfirst b hb).symm]

/-- To keep the rows that have the key of a chosen one is to keep the chosen ones. -/
theorem filter_contains_of_sublist [BEq κ] [LawfulBEq κ] {key : α → κ} {chosen some : List α}
    (hchosen : chosen.Perm some) (hsublist : some.Sublist rows)
    (hkeys : rows.Pairwise fun a b => key a ≠ key b) :
    rows.filter (fun row => (chosen.map key).contains (key row)) = some := by
  apply filter_eq_of_sublist hsublist hkeys
  intro row _
  rw [List.contains_iff_mem]
  exact (hchosen.map key).mem_iff

/-- The keys of the rows with a property have a key if a row with the property has it. -/
theorem contains_map_filter_eq_any [BEq κ] [LawfulBEq κ] (key : α → κ) (p : α → Bool)
    (rows : List α) (k : κ) :
    ((rows.filter p).map key).contains k = rows.any fun row => key row == k && p row := by
  rw [Bool.eq_iff_iff, List.contains_iff_mem, List.any_eq_true]
  constructor
  · intro hmem
    obtain ⟨row, hrow, rfl⟩ := List.mem_map.mp hmem
    obtain ⟨hrow, hp⟩ := List.mem_filter.mp hrow
    exact ⟨row, hrow, by simp [hp]⟩
  · rintro ⟨row, hrow, hboth⟩
    rw [Bool.and_eq_true, beq_iff_eq] at hboth
    obtain ⟨rfl, hp⟩ := hboth
    exact List.mem_map_of_mem (List.mem_filter.mpr ⟨hrow, hp⟩)

section Asymmetric

variable {R : α → α → Prop} (hasymm : ∀ a b, R a b → ¬R b a)

include hasymm

/-- A row is among the first ones where fewer rows than these come before it. -/
theorem mem_take_iff_of_pairwise {p : α → Bool} {row : α} {count : Nat} (hrows : rows.Pairwise R)
    (hrow : row ∈ rows) (hp : ∀ other ∈ rows, p other = true ↔ R other row) :
    row ∈ rows.take count ↔ rows.countP p < count := by
  induction rows generalizing count with
  | nil => cases hrow
  | cons first rest ih =>
    obtain ⟨hfirst, hrest⟩ := List.pairwise_cons.mp hrows
    obtain ⟨hpFirst, hpRest⟩ := List.forall_mem_cons.mp hp
    cases count with
    | zero => simp
    | succ count =>
      by_cases hbefore : p first = true
      · -- a row does not come before itself, so it is one of the rest
        have hbelow := hpFirst.mp hbefore
        have hne : row ≠ first := by
          rintro rfl
          exact hasymm row row hbelow hbelow
        have hmem : row ∈ rest := (List.mem_cons.mp hrow).resolve_left hne
        rw [List.take_succ_cons, List.mem_cons, List.countP_cons_of_pos hbefore,
          Nat.succ_lt_succ_iff, ← ih hrest hmem hpRest]
        simp [hne]
      · -- nothing comes before the first row but itself is that row
        have hsame : row = first := by
          rcases List.mem_cons.mp hrow with hsame | hmem
          · exact hsame
          · exact absurd (hpFirst.mpr (hfirst row hmem)) hbefore
        have hnone : rest.countP p = 0 := by
          apply List.countP_eq_zero.mpr
          intro other hother hpOther
          rw [hpRest other hother, hsame] at hpOther
          exact hasymm first other (hfirst other hother) hpOther
        simp [hsame, hbefore, hnone]

end Asymmetric

end Chosen

/-! ## Rows of some days -/

/-- What has a time within a number of days of 86400 seconds before another time; zero is no
limit. -/
def withinDays {α : Type} (time : α → Int64) (now : Int64) (days : Nat) (all : List α) : List α :=
  if days = 0 then all else all.filter fun a => now.toInt - days * 86400 ≤ (time a).toInt

section WithinDays

variable {α : Type} (time : α → Int64) (now : Int64)

theorem withinDays_zero (all : List α) : withinDays time now 0 all = all := if_pos rfl

theorem withinDays_sublist (days : Nat) (all : List α) :
    (withinDays time now days all).Sublist all := by
  rw [withinDays]
  split
  · exact .refl all
  · exact List.filter_sublist

end WithinDays

end SessionArchive.Store
