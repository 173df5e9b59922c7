import Mathlib.Algebra.Order.Field.Power
import SessionArchive.Text.Digits

/-!
# Reading back written digits

`decimalValue` continues a number with the digits of a text. The digits of `decimal n` give `n` back
(`decimalValue_decimal`); they begin with a zero only when `n` is zero (`head_decimal_ne_zero`), and
their number bounds `n` from both sides (`lt_ten_pow_length_decimal`, `ten_pow_length_decimal_le`).
-/

set_option autoImplicit false

namespace SessionArchive.Text

/-- The value of a decimal digit. -/
def digitValue (c : Char) : Nat := c.toNat - '0'.toNat

/-- The number whose decimal digits are those of `n` and after them those of a text. -/
def decimalValue (n : Nat) (cs : List Char) : Nat :=
  cs.foldl (fun n c => n * 10 + digitValue c) n

theorem decimalDigit?_of_isDigit {c : Char} (h : isDigit c = true) :
    decimalDigit? c = some (digitValue c) := by
  simp only [isDigit, Bool.and_eq_true, decide_eq_true_eq] at h
  rw [decimalDigit?, if_pos h, digitValue]

theorem decimalDigit?_eq_none {c : Char} (h : isDigit c = false) : decimalDigit? c = none := by
  simp only [isDigit, Bool.and_eq_false_iff, decide_eq_false_iff_not] at h
  rw [decimalDigit?, if_neg]
  rintro ⟨h1, h2⟩
  rcases h with h | h
  · exact h h1
  · exact h h2

theorem isDigit_digitChar : ∀ d, d < 10 → isDigit (digitChar d) = true := by decide

theorem digitValue_digitChar : ∀ d, d < 10 → digitValue (digitChar d) = d := by decide

theorem digitChar_ne_zero : ∀ d, d < 10 → d ≠ 0 → digitChar d ≠ '0' := by decide

theorem decimal_of_lt {n : Nat} (h : n < 10) : decimal n = [digitChar n] := by
  rw [decimal, if_pos h]

theorem decimal_of_ge {n : Nat} (h : ¬ n < 10) :
    decimal n = decimal (n / 10) ++ [digitChar (n % 10)] := by
  rw [decimal, if_neg h]

theorem decimal_ne_nil (n : Nat) : decimal n ≠ [] := by
  by_cases h : n < 10
  · simp [decimal_of_lt h]
  · simp [decimal_of_ge h]

theorem isDigit_of_mem_decimal (n : Nat) : ∀ c ∈ decimal n, isDigit c = true := by
  induction n using Nat.strongRecOn with
  | _ n ih =>
    intro c hc
    by_cases h : n < 10
    · rw [decimal_of_lt h, List.mem_singleton] at hc
      rw [hc]
      exact isDigit_digitChar n h
    · rw [decimal_of_ge h, List.mem_append, List.mem_singleton] at hc
      rcases hc with hc | rfl
      · exact ih (n / 10) (by omega) c hc
      · exact isDigit_digitChar (n % 10) (by omega)

/-- A positive number is written without leading zeros. -/
theorem head_decimal_ne_zero {n : Nat} (h : n ≠ 0) : (decimal n).head? ≠ some '0' := by
  induction n using Nat.strongRecOn with
  | _ n ih =>
    by_cases hn : n < 10
    · rw [decimal_of_lt hn, List.head?_cons, ne_eq, Option.some.injEq]
      exact digitChar_ne_zero n hn h
    · -- the first digit is that of the number without its last one
      rw [decimal_of_ge hn]
      have hd := ih (n / 10) (by omega) (by omega)
      cases hc : decimal (n / 10) with
      | nil => exact absurd hc (decimal_ne_nil _)
      | cons c cs => rwa [hc] at hd

theorem isDigit_of_mem_replicate_zero {k : Nat} :
    ∀ c ∈ List.replicate k '0', isDigit c = true := by
  intro c hc
  rw [List.eq_of_mem_replicate hc]
  decide

/-! ## The value of digits -/

theorem decimalValue_append (n : Nat) (as bs : List Char) :
    decimalValue n (as ++ bs) = decimalValue (decimalValue n as) bs :=
  List.foldl_append

theorem decimalValue_cons (n : Nat) (c : Char) (cs : List Char) :
    decimalValue n (c :: cs) = decimalValue (n * 10 + digitValue c) cs :=
  List.foldl_cons ..

theorem decimalValue_eq (n : Nat) (cs : List Char) :
    decimalValue n cs = n * 10 ^ cs.length + decimalValue 0 cs := by
  induction cs generalizing n with
  | nil => simp [decimalValue]
  | cons c cs ih =>
    -- both sides go on with the digits behind `c`, from different numbers
    rw [decimalValue_cons, decimalValue_cons, ih, ih (0 * 10 + _), List.length_cons, Nat.pow_succ,
      Nat.add_mul, Nat.zero_mul, Nat.zero_add, Nat.mul_assoc, Nat.mul_comm (10 ^ cs.length) 10,
      Nat.add_assoc]

theorem le_decimalValue (n : Nat) (cs : List Char) : n ≤ decimalValue n cs := by
  rw [decimalValue_eq]
  have h : n * 1 ≤ n * 10 ^ cs.length := Nat.mul_le_mul_left n (Nat.one_le_pow _ 10 (by omega))
  omega

/-- Reading the digits of a number gives the number back. -/
theorem decimalValue_decimal (n : Nat) : decimalValue 0 (decimal n) = n := by
  induction n using Nat.strongRecOn with
  | _ n ih =>
    by_cases h : n < 10
    · rw [decimal_of_lt h, decimalValue_cons, digitValue_digitChar n h]
      simp [decimalValue]
    · rw [decimal_of_ge h, decimalValue_append, ih (n / 10) (by omega), decimalValue_cons,
        digitValue_digitChar (n % 10) (by omega)]
      simp only [decimalValue, List.foldl_nil]
      omega

theorem mapM_decimalDigit? {cs : List Char} (h : ∀ c ∈ cs, isDigit c = true) :
    cs.mapM decimalDigit? = some (cs.map digitValue) := by
  induction cs with
  | nil => rfl
  | cons c cs ih =>
    obtain ⟨hc, hcs⟩ := List.forall_mem_cons.mp h
    rw [List.mapM_cons, decimalDigit?_of_isDigit hc, ih hcs]
    rfl

theorem ofDecimal?_decimal (n : Nat) : ofDecimal? (decimal n) = some n := by
  rw [ofDecimal?, mapM_decimalDigit? (isDigit_of_mem_decimal n), Option.map_some, ofDigits,
    List.foldl_map]
  exact congrArg some (decimalValue_decimal n)

/-- Every zero after a number is a factor of ten. -/
theorem decimalValue_replicate_zero (n k : Nat) :
    decimalValue n (List.replicate k '0') = n * 10 ^ k := by
  induction k generalizing n with
  | zero => exact (Nat.mul_one n).symm
  | succ k ih =>
    have hzero : digitValue '0' = 0 := by decide
    rw [List.replicate_succ, decimalValue_cons, ih, hzero, Nat.add_zero, Nat.mul_assoc,
      Nat.pow_succ']

/-! ## The number of digits -/

theorem length_decimal_pos (n : Nat) : 0 < (decimal n).length :=
  List.length_pos_iff.mpr (decimal_ne_nil n)

/-- A number is below the power of ten with as many zeros as it has digits. -/
theorem lt_ten_pow_length_decimal (n : Nat) : n < 10 ^ (decimal n).length := by
  induction n using Nat.strongRecOn with
  | _ n ih =>
    by_cases h : n < 10
    · rw [decimal_of_lt h]
      exact h
    · have hfront := ih (n / 10) (by omega)
      rw [decimal_of_ge h, List.length_append, List.length_singleton, Nat.pow_succ]
      omega

/-- A positive number is no less than the power of ten with as many digits. -/
theorem ten_pow_length_decimal_le {n : Nat} (h : 0 < n) : 10 ^ ((decimal n).length - 1) ≤ n := by
  induction n using Nat.strongRecOn with
  | _ n ih =>
    by_cases hn : n < 10
    · rw [decimal_of_lt hn]
      exact h
    · -- the front has one digit less, and `n` is ten times as great at least
      have hfront := ih (n / 10) (by omega) (by omega)
      obtain ⟨k, hk⟩ := Nat.exists_eq_add_of_lt (length_decimal_pos (n / 10))
      rw [decimal_of_ge hn, List.length_append, List.length_singleton, Nat.add_sub_cancel, hk,
        Nat.zero_add, Nat.pow_succ]
      rw [hk, Nat.zero_add, Nat.add_sub_cancel] at hfront
      omega

theorem length_decimal_le {n k : Nat} (hk : 0 < k) (h : n < 10 ^ k) : (decimal n).length ≤ k := by
  by_cases hn : n = 0
  · rw [hn, decimal_of_lt (by omega)]
    exact hk
  · have hle := ten_pow_length_decimal_le (Nat.pos_of_ne_zero hn)
    have hlt := (Nat.pow_lt_pow_iff_right (by omega)).mp (Nat.lt_of_le_of_lt hle h)
    omega

end SessionArchive.Text
