import Mathlib.Data.List.Forall2

/-!
# Lists that are related item by item

What is said of all items of one list passes to the items of another that each stand to them in a
relation: what is kept of them, and which item one of them stands to.
-/

set_option autoImplicit false

namespace SessionArchive

variable {α β : Type} {R S : α → β → Prop} {l : List α} {m : List β}

theorem forall₂_filter {p : α → Bool} {q : β → Bool} (h : List.Forall₂ R l m)
    (hpq : ∀ a ∈ l, ∀ b, R a b → p a = q b) (hkept : ∀ a ∈ l, ∀ b, R a b → p a = true → S a b) :
    List.Forall₂ S (l.filter p) (m.filter q) := by
  induction h with
  | nil => exact .nil
  | @cons a b l m hab hrest ih =>
    obtain ⟨hpqFirst, hpqRest⟩ := List.forall_mem_cons.mp hpq
    obtain ⟨hkeptFirst, hkeptRest⟩ := List.forall_mem_cons.mp hkept
    have hsame := hpqFirst b hab
    cases hp : p a with
    | true =>
      rw [List.filter_cons_of_pos hp, List.filter_cons_of_pos (hsame ▸ hp)]
      exact .cons (hkeptFirst b hab hp) (ih hpqRest hkeptRest)
    | false =>
      rw [List.filter_cons_of_neg (by simp [hp]), List.filter_cons_of_neg (by simp [← hsame, hp])]
      exact ih hpqRest hkeptRest

theorem exists_of_mem_right (h : List.Forall₂ R l m) {b : β} (hb : b ∈ m) : ∃ a ∈ l, R a b := by
  induction h with
  | nil => cases hb
  | @cons a c l m hac hrest ih =>
    rcases List.mem_cons.mp hb with rfl | hb
    · exact ⟨a, List.mem_cons_self, hac⟩
    · obtain ⟨x, hx, hxb⟩ := ih hb
      exact ⟨x, List.mem_cons_of_mem _ hx, hxb⟩

theorem exists_of_mem_left (h : List.Forall₂ R l m) {a : α} (ha : a ∈ l) : ∃ b ∈ m, R a b := by
  obtain ⟨b, hb, hab⟩ := exists_of_mem_right h.flip ha
  exact ⟨b, hb, hab⟩

end SessionArchive
