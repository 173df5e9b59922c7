import Mathlib.Control.Monad.Basic

/-!
# Results in sequence

What a sequence of steps yields once the first of them is known to succeed or to fail.
-/

set_option autoImplicit false

namespace SessionArchive

variable {ε ε' α β : Type}

@[simp] theorem ok_bind (a : α) (f : α → Except ε β) : (Except.ok a >>= f) = f a := rfl

@[simp] theorem error_bind (e : ε) (f : α → Except ε β) :
    ((Except.error e : Except ε α) >>= f) = .error e := rfl

@[simp] theorem map_ok (f : α → β) (a : α) : (Except.ok a : Except ε α).map f = .ok (f a) := rfl

@[simp] theorem map_error (f : α → β) (e : ε) :
    (Except.error e : Except ε α).map f = .error e := rfl

@[simp] theorem mapError_ok (f : ε → ε') (a : α) :
    (Except.ok a : Except ε α).mapError f = .ok a := rfl

@[simp] theorem mapError_error (f : ε → ε') (e : ε) :
    (Except.error e : Except ε α).mapError f = .error (f e) := rfl

/-- A sequence fails at its first step or at what comes after. -/
theorem bind_eq_error_iff {result : Except ε α} {f : α → Except ε β} {e : ε} :
    (result >>= f) = .error e ↔ result = .error e ∨ ∃ a, result = .ok a ∧ f a = .error e := by
  cases result with
  | error first => simp
  | ok a => simp

/-- A sequence succeeds where its first step does and what comes after. -/
theorem bind_eq_ok_iff {result : Except ε α} {f : α → Except ε β} {b : β} :
    (result >>= f) = .ok b ↔ ∃ a, result = .ok a ∧ f a = .ok b := by
  cases result with
  | error first => simp
  | ok a => simp

theorem map_eq_error_iff {result : Except ε α} {f : α → β} {e : ε} :
    result.map f = .error e ↔ result = .error e := by
  cases result with
  | error first => simp
  | ok a => simp

theorem map_eq_ok_iff {result : Except ε α} {f : α → β} {b : β} :
    result.map f = .ok b ↔ ∃ a, result = .ok a ∧ f a = b := by
  cases result with
  | error first => simp
  | ok a => simp

theorem mapError_eq_error_iff {result : Except ε α} {f : ε → ε'} {e : ε'} :
    result.mapError f = .error e ↔ ∃ first, result = .error first ∧ f first = e := by
  cases result with
  | error first => simp
  | ok a => simp

theorem map_mapError (g : ε → ε') (f : α → β) (result : Except ε α) :
    (result.mapError g).map f = (result.map f).mapError g := by
  cases result with
  | error e => rfl
  | ok a => rfl

/-! ## What a success gives -/

/-- A result is a failure, or what it gives has a property. -/
def Gives (result : Except ε α) (p : α → Prop) : Prop := ∀ a, result = .ok a → p a

namespace Gives

variable {p : α → Prop} {q : β → Prop}

theorem ok {a : α} (h : p a) : Gives (.ok a : Except ε α) p := by
  rintro _ ⟨⟩
  exact h

theorem error (e : ε) (p : α → Prop) : Gives (.error e : Except ε α) p := nofun

theorem mono {result : Except ε α} {p q : α → Prop} (h : Gives result p) (hpq : ∀ a, p a → q a) :
    Gives result q := fun a ha => hpq a (h a ha)

theorem bind {result : Except ε α} {f : α → Except ε β} (h : Gives result p)
    (hf : ∀ a, p a → Gives (f a) q) : Gives (result >>= f) q := by
  cases result with
  | error e => exact error e q
  | ok a => exact hf a (h a rfl)

theorem map {result : Except ε α} {f : α → β} (h : Gives result p) (hf : ∀ a, p a → q (f a)) :
    Gives (result.map f) q := by
  cases result with
  | error e => exact error e q
  | ok a => exact ok (hf a (h a rfl))

end Gives

end SessionArchive
