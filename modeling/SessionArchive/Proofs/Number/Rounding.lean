import Mathlib.Algebra.Order.Field.Power
import Mathlib.Data.Nat.Log
import Mathlib.Tactic.FieldSimp
import Mathlib.Tactic.Linarith
import Mathlib.Tactic.NormNum
import Mathlib.Tactic.Positivity
import Mathlib.Tactic.Ring
import SessionArchive.Number.Binary64

/-!
# Rounding to a double

How far `Binary64.round` is from the fraction that it rounds. `round_eq` describes the result by its
significand and exponent; from it follow `exists_round`, which says that there is a result below
`finiteBound` and how near it is, and `isRepresentable_of_round`. Fractions are compared as rational
numbers.
-/

set_option autoImplicit false

namespace SessionArchive.Number

/-- A fraction of natural numbers as a rational number. -/
def ratio (q : Nat × Nat) : ℚ := q.1 / q.2

/-! ## Scaling -/

section Scale

variable {base : Nat} (hbase : 0 < base)

include hbase

theorem ratio_scale (num den : Nat) (e : Int) :
    ratio (scale base num den e) = num / den * (base : ℚ) ^ e := by
  have hbaseQ : (base : ℚ) ≠ 0 := by exact_mod_cast hbase.ne'
  cases e with
  | ofNat k =>
    simp only [scale, ratio, Nat.pow_eq, Int.ofNat_eq_natCast, zpow_natCast]
    push_cast
    ring
  | negSucc k =>
    simp only [scale, ratio, Nat.pow_eq, zpow_negSucc]
    push_cast
    field_simp

/-- Scaling down and back up gives the fraction. -/
theorem ratio_scale_neg_mul (num den : Nat) (k : Int) :
    ratio (scale base num den (-k)) * (base : ℚ) ^ k = num / den := by
  have hbaseQ : (base : ℚ) ≠ 0 := by exact_mod_cast hbase.ne'
  rw [ratio_scale hbase, mul_assoc, ← zpow_add₀ hbaseQ, neg_add_cancel, zpow_zero, mul_one]

theorem scale_snd_pos {num den : Nat} (hden : 0 < den) (e : Int) :
    0 < (scale base num den e).2 := by
  cases e with
  | ofNat k => exact hden
  | negSucc k => exact Nat.mul_pos hden (Nat.pow_pos hbase)

end Scale

/-! ## Comparing fractions -/

theorem fst_lt_snd_iff {q : Nat × Nat} (hq : 0 < q.2) {value power : ℚ} (hpower : 0 < power)
    (h : ratio q = value / power) : q.1 < q.2 ↔ value < power := by
  have hqPos : (0 : ℚ) < q.2 := by exact_mod_cast hq
  rw [ratio] at h
  rw [← Nat.cast_lt (α := ℚ), ← div_lt_one hqPos, h, div_lt_one hpower]

/-- The exponents of a numerator and a denominator leave two candidates for that of their quotient;
one comparison decides between them. -/
theorem leading_spec {base : ℚ} (hbase : 1 < base) {num den : ℚ} (hpos : 0 < den) {i j : Int}
    (hnum : base ^ i ≤ num ∧ num < base ^ (i + 1)) (hden : base ^ j ≤ den ∧ den < base ^ (j + 1)) :
    base ^ (if num / den < base ^ (i - j) then i - j - 1 else i - j) ≤ num / den ∧
      num / den < base ^ ((if num / den < base ^ (i - j) then i - j - 1 else i - j) + 1) := by
  have hbasePos : 0 < base := zero_lt_one.trans hbase
  -- the quotient lies between the powers below and above the candidates
  have hlow : base ^ (i - j - 1) ≤ num / den := by
    rw [le_div_iff₀ hpos]
    calc base ^ (i - j - 1) * den ≤ base ^ (i - j - 1) * base ^ (j + 1) := by
          have := hden.2.le
          gcongr
      _ = base ^ i := by
          rw [← zpow_add₀ hbasePos.ne']
          congr 1
          omega
      _ ≤ num := hnum.1
  have hhigh : num / den < base ^ (i - j + 1) := by
    rw [div_lt_iff₀ hpos]
    calc num < base ^ (i + 1) := hnum.2
      _ = base ^ (i - j + 1) * base ^ j := by
          rw [← zpow_add₀ hbasePos.ne']
          congr 1
          omega
      _ ≤ base ^ (i - j + 1) * den := by
          have := hden.1
          gcongr
  split
  · rename_i h
    rw [sub_add_cancel]
    exact ⟨hlow, h⟩
  · rename_i h
    exact ⟨not_lt.mp h, hhigh⟩

namespace Binary64

/-- The absolute value of a number. -/
def abs (x : Binary64) : ℚ := x.significand * 2 ^ x.exponent

/-- From here on a number rounds to none. -/
def finiteBound : ℚ := (2 ^ 54 - 1) * 2 ^ 970

theorem finiteBound_eq_cast : finiteBound = (((2 ^ 54 - 1) * 2 ^ 970 : Nat) : ℚ) := by
  rw [finiteBound, Nat.cast_mul, Nat.cast_pow]
  norm_num

/-! ## Magnitudes -/

theorem ratio_magnitude (x : Binary64) : ratio x.magnitude = x.abs := by
  rw [magnitude, ratio_scale two_pos, Nat.cast_one, div_one, Nat.cast_ofNat, abs]

theorem magnitude_snd_pos (x : Binary64) : 0 < x.magnitude.2 := scale_snd_pos two_pos Nat.one_pos _

theorem abs_nonneg (x : Binary64) : 0 ≤ x.abs := by
  simp only [abs]
  positivity

/-! ## The leading bit -/

theorem log2_le (n : Nat) (h : 0 < n) : (2 : ℚ) ^ (n.log2 : Int) ≤ n := by
  rw [zpow_natCast]
  exact_mod_cast Nat.log2_self_le (Nat.pos_iff_ne_zero.mp h)

theorem lt_log2 (n : Nat) : (n : ℚ) < 2 ^ ((n.log2 : Int) + 1) := by
  have h : n < 2 ^ (n.log2 + 1) := Nat.lt_log2_self
  have hcast : (n : ℚ) < (2 ^ (n.log2 + 1) : Nat) := by exact_mod_cast h
  rw [Nat.cast_pow, ← zpow_natCast] at hcast
  exact_mod_cast hcast

theorem leadingBit_spec {num den : Nat} (hnum : 0 < num) (hden : 0 < den) :
    (2 : ℚ) ^ leadingBit num den ≤ num / den ∧ (num : ℚ) / den < 2 ^ (leadingBit num den + 1) := by
  let guess : Int := (num.log2 : Int) - den.log2
  have hpos : 0 < (scale 2 num den (-guess)).2 := scale_snd_pos two_pos hden (-guess)
  have hratio := ratio_scale two_pos num den (-guess)
  rw [Nat.cast_ofNat, zpow_neg, ← div_eq_mul_inv] at hratio
  have hlead : leadingBit num den =
      if (scale 2 num den (-guess)).1 < (scale 2 num den (-guess)).2 then guess - 1
      else guess := rfl
  rw [hlead, if_congr (fst_lt_snd_iff hpos (by positivity) hratio) rfl rfl]
  exact leading_spec one_lt_two (Nat.cast_pos.mpr hden) ⟨log2_le num hnum, lt_log2 num⟩
    ⟨log2_le den hden, lt_log2 den⟩

/-! ## The rounded quotient -/

theorem roundDiv_spec (num : Nat) {den : Nat} (hden : 0 < den) :
    2 * den * roundDiv num den ≤ 2 * num + den ∧ 2 * num ≤ 2 * den * roundDiv num den + den := by
  have hdiv : den * (num / den) + num % den = num := Nat.div_add_mod num den
  have hmod : num % den < den := Nat.mod_lt num hden
  simp only [roundDiv]
  -- rounded up when the remainder is half of `den` at least, down when it is half at most
  split
  · rw [Nat.mul_assoc, Nat.mul_add den, Nat.mul_one]
    omega
  · rw [Nat.mul_assoc]
    omega

/-- The quotient is rounded by half a unit at most. -/
theorem abs_roundDiv_sub_le (num : Nat) {den : Nat} (hden : 0 < den) :
    |(roundDiv num den : ℚ) - num / den| ≤ 1 / 2 := by
  obtain ⟨hupper, hlower⟩ := roundDiv_spec num hden
  have hdenPos : (0 : ℚ) < den := by exact_mod_cast hden
  have hupperQ : 2 * (den : ℚ) * roundDiv num den ≤ 2 * num + den := by exact_mod_cast hupper
  have hlowerQ : 2 * (num : ℚ) ≤ 2 * den * roundDiv num den + den := by exact_mod_cast hlower
  rw [abs_le]
  constructor
  · rw [neg_le_sub_iff_le_add, div_le_iff₀ hdenPos]
    linarith
  · rw [sub_le_iff_le_add', ← sub_le_iff_le_add, le_div_iff₀ hdenPos]
    linarith

/-- Rounding does not more than double a quotient. -/
theorem roundDiv_le_two_mul (num : Nat) {den : Nat} (hden : 0 < den) :
    (roundDiv num den : ℚ) ≤ 2 * (num / den) := by
  have hdenPos : (0 : ℚ) < den := by exact_mod_cast hden
  have hbound : den * roundDiv num den ≤ 2 * num := by
    obtain ⟨hupper, _⟩ := roundDiv_spec num hden
    by_cases hhalf : den ≤ 2 * num
    · rw [Nat.mul_assoc] at hupper
      omega
    · -- below a half a quotient is rounded to zero
      have hzero : roundDiv num den = 0 := by
        have hlt : 2 * num < den := by omega
        rw [roundDiv, Nat.div_eq_of_lt (by omega), Nat.mod_eq_of_lt (by omega)]
        simp only [Nat.zero_mod, zero_ne_one, and_false, or_false, ite_eq_right_iff]
        omega
      rw [hzero]
      omega
  have hboundQ : (den : ℚ) * roundDiv num den ≤ 2 * num := by exact_mod_cast hbound
  rw [mul_div_assoc', le_div_iff₀ hdenPos]
  linarith

/-! ## The rounded fraction -/

/-- The exponent that a fraction is rounded at. -/
def unitExponent (num den : Nat) : Int := max (leadingBit num den - 52) leastExponent

/-- What is known of the significand and the exponent that a fraction is rounded to. -/
structure RoundsTo (num den : Nat) (significand : Nat) (exponent : Int) : Prop where
  lt : significand < 2 ^ 53
  least : leastExponent ≤ exponent
  normal : 2 ^ 52 ≤ significand ∨ exponent = leastExponent
  near : |(significand : ℚ) * 2 ^ exponent - num / den| ≤ 2 ^ unitExponent num den / 2
  le_two_mul : (significand : ℚ) * 2 ^ exponent ≤ 2 * (num / den)
  overflow : greatestExponent < exponent → finiteBound ≤ (num : ℚ) / den

theorem lt_unitExponent {num den : Nat} (hnum : 0 < num) (hden : 0 < den) :
    (num : ℚ) / den < 2 ^ 53 * 2 ^ unitExponent num den := by
  have hle : leadingBit num den + 1 ≤ 53 + unitExponent num den := by
    simp only [unitExponent]
    omega
  calc (num : ℚ) / den < 2 ^ (leadingBit num den + 1) := (leadingBit_spec hnum hden).2
    _ ≤ 2 ^ (53 + unitExponent num den) := zpow_le_zpow_right₀ one_le_two hle
    _ = 2 ^ 53 * 2 ^ unitExponent num den := by
        rw [zpow_add₀ two_ne_zero]
        norm_num

theorem unitExponent_le {num den : Nat} (hnum : 0 < num) (hden : 0 < den)
    (h : unitExponent num den ≠ leastExponent) :
    2 ^ 52 * 2 ^ unitExponent num den ≤ (num : ℚ) / den := by
  have heq : 52 + unitExponent num den = leadingBit num den := by
    simp only [unitExponent] at h ⊢
    omega
  calc (2 : ℚ) ^ 52 * 2 ^ unitExponent num den = 2 ^ (52 + unitExponent num den) := by
        rw [zpow_add₀ two_ne_zero]
        norm_num
    _ ≤ num / den := by
        rw [heq]
        exact (leadingBit_spec hnum hden).1

/-- The fraction in units of the exponent that it is rounded at. -/
def inUnits (num den : Nat) : Nat × Nat := scale 2 num den (-unitExponent num den)

/-- The number of units that a fraction is rounded to. -/
def units (num den : Nat) : Nat := roundDiv (inUnits num den).1 (inUnits num den).2

theorem inUnits_snd_pos (num : Nat) {den : Nat} (hden : 0 < den) : 0 < (inUnits num den).2 :=
  scale_snd_pos two_pos hden _

theorem inUnits_mul (num den : Nat) :
    ((inUnits num den).1 : ℚ) / (inUnits num den).2 * 2 ^ unitExponent num den = num / den :=
  ratio_scale_neg_mul two_pos num den (unitExponent num den)

theorem abs_units_sub_le (num : Nat) {den : Nat} (hden : 0 < den) :
    |(units num den : ℚ) * 2 ^ unitExponent num den - num / den| ≤
      2 ^ unitExponent num den / 2 := by
  have hunit : (0 : ℚ) < 2 ^ unitExponent num den := by positivity
  have hnear : |(units num den : ℚ) - (inUnits num den).1 / (inUnits num den).2| ≤ 1 / 2 :=
    abs_roundDiv_sub_le _ (inUnits_snd_pos num hden)
  rw [← inUnits_mul num den, ← sub_mul, abs_mul, abs_of_pos hunit]
  calc |(units num den : ℚ) - (inUnits num den).1 / (inUnits num den).2| * 2 ^ unitExponent num den
      ≤ 1 / 2 * 2 ^ unitExponent num den := by gcongr
    _ = 2 ^ unitExponent num den / 2 := by ring

theorem units_mul_le (num : Nat) {den : Nat} (hden : 0 < den) :
    (units num den : ℚ) * 2 ^ unitExponent num den ≤ 2 * (num / den) := by
  have hdouble : (units num den : ℚ) ≤ 2 * ((inUnits num den).1 / (inUnits num den).2) :=
    roundDiv_le_two_mul _ (inUnits_snd_pos num hden)
  rw [← inUnits_mul num den, ← mul_assoc]
  gcongr

/-- Rounding up can reach one unit more than a significand has room for. -/
theorem units_le {num den : Nat} (hnum : 0 < num) (hden : 0 < den) : units num den ≤ 2 ^ 53 := by
  have hunit : (0 : ℚ) < 2 ^ unitExponent num den := by positivity
  have hlt := lt_unitExponent hnum hden
  rw [← inUnits_mul num den] at hlt
  have hquotient : ((inUnits num den).1 : ℚ) / (inUnits num den).2 < 2 ^ 53 :=
    lt_of_mul_lt_mul_right hlt hunit.le
  have hupper := (abs_le.mp (abs_roundDiv_sub_le (inUnits num den).1 (inUnits_snd_pos num hden))).2
  have hlast : (units num den : ℚ) < ((2 ^ 53 + 1 : Nat) : ℚ) := by
    push_cast
    simp only [units]
    linarith
  have hnat : units num den < 2 ^ 53 + 1 := by exact_mod_cast hlast
  omega

/-- Above the least exponent the significand has all its bits. -/
theorem le_units {num den : Nat} (hnum : 0 < num) (hden : 0 < den)
    (h : unitExponent num den ≠ leastExponent) : 2 ^ 52 ≤ units num den := by
  have hunit : (0 : ℚ) < 2 ^ unitExponent num den := by positivity
  have hmany := unitExponent_le hnum hden h
  rw [← inUnits_mul num den] at hmany
  have hquotient : (2 : ℚ) ^ 52 ≤ (inUnits num den).1 / (inUnits num den).2 :=
    le_of_mul_le_mul_right hmany hunit
  have hlower := (abs_le.mp (abs_roundDiv_sub_le (inUnits num den).1 (inUnits_snd_pos num hden))).1
  have hlast : ((2 ^ 52 : Nat) : ℚ) < ((units num den + 1 : Nat) : ℚ) := by
    push_cast
    simp only [units]
    linarith
  have hnat : 2 ^ 52 < units num den + 1 := by exact_mod_cast hlast
  omega

theorem leastExponent_le_unitExponent (num den : Nat) : leastExponent ≤ unitExponent num den :=
  le_max_right _ _

/-- Where the units fill up, the significand is halved and the exponent one greater. -/
theorem roundsTo_carry {num den : Nat} (hden : 0 < den) (hcarry : units num den = 2 ^ 53) :
    RoundsTo num den (2 ^ 52) (unitExponent num den + 1) := by
  have hleast := leastExponent_le_unitExponent num den
  have hvalue : ((2 ^ 52 : Nat) : ℚ) * 2 ^ (unitExponent num den + 1) =
      units num den * 2 ^ unitExponent num den := by
    rw [hcarry, zpow_add₀ two_ne_zero]
    push_cast
    ring
  have hnear := abs_units_sub_le num hden
  refine ⟨by norm_num, by omega, .inl le_rfl, ?_, ?_, ?_⟩
  · rw [hvalue]
    exact hnear
  · rw [hvalue]
    exact units_mul_le num hden
  · intro hover
    have hpow : (2 : ℚ) ^ ((970 + 1 : Nat) : Int) ≤ 2 ^ unitExponent num den :=
      zpow_le_zpow_right₀ one_le_two (by unfold greatestExponent at hover; omega)
    rw [zpow_natCast, pow_succ] at hpow
    -- the fraction is at most half a unit below `2 ^ 53` units
    have hlower := (abs_le.mp hnear).2
    rw [hcarry] at hlower
    push_cast at hlower
    simp only [finiteBound]
    generalize (2 : ℚ) ^ 970 = unit at hpow ⊢
    linarith

theorem roundsTo_units {num den : Nat} (hnum : 0 < num) (hden : 0 < den)
    (hcarry : units num den ≠ 2 ^ 53) :
    RoundsTo num den (units num den) (unitExponent num den) := by
  have hle := units_le hnum hden
  refine ⟨by omega, leastExponent_le_unitExponent num den, ?_, abs_units_sub_le num hden,
    units_mul_le num hden, ?_⟩
  · by_cases hmin : unitExponent num den = leastExponent
    · exact .inr hmin
    · exact .inl (le_units hnum hden hmin)
  · intro hover
    -- far above the least exponent, so the significand has all its bits
    have hmin : unitExponent num den ≠ leastExponent := by
      simp only [greatestExponent] at hover
      simp only [leastExponent]
      omega
    have hpow : (2 : ℚ) ^ ((970 + 2 : Nat) : Int) ≤ 2 ^ unitExponent num den :=
      zpow_le_zpow_right₀ one_le_two (by unfold greatestExponent at hover; omega)
    rw [zpow_natCast, pow_add] at hpow
    have hmany := unitExponent_le hnum hden hmin
    have hpositive : (0 : ℚ) < 2 ^ 970 := pow_pos two_pos 970
    simp only [finiteBound]
    generalize (2 : ℚ) ^ 970 = unit at hpow hpositive ⊢
    linarith

theorem round_eq (negative : Bool) {num den : Nat} (hnum : 0 < num) (hden : 0 < den) :
    ∃ significand exponent, RoundsTo num den significand exponent ∧
      round negative num den =
        if exponent > greatestExponent then none else some ⟨negative, significand, exponent⟩ := by
  have hround : round negative num den =
      if (if units num den = 2 ^ 53 then (2 ^ 52, unitExponent num den + 1)
          else (units num den, unitExponent num den)).2 > greatestExponent then none
      else some ⟨negative,
        (if units num den = 2 ^ 53 then (2 ^ 52, unitExponent num den + 1)
          else (units num den, unitExponent num den)).1,
        (if units num den = 2 ^ 53 then (2 ^ 52, unitExponent num den + 1)
          else (units num den, unitExponent num den)).2⟩ := by
    rw [round, if_neg (Nat.pos_iff_ne_zero.mp hnum)]
    rfl
  -- where the units round up to a power of two, they are halved and the exponent goes up
  by_cases hcarry : units num den = 2 ^ 53
  · rw [if_pos hcarry] at hround
    exact ⟨_, _, roundsTo_carry hden hcarry, hround⟩
  · rw [if_neg hcarry] at hround
    exact ⟨_, _, roundsTo_units hnum hden hcarry, hround⟩

/-! ## Results -/

theorem isRepresentable_zero (negative : Bool) : (zero negative).isRepresentable = true := by
  cases negative <;> decide

theorem abs_zero (negative : Bool) : (zero negative).abs = 0 := by
  simp [abs, zero]

theorem isRepresentable_of_round {negative : Bool} {num den : Nat} {x : Binary64}
    (hden : 0 < den) (h : round negative num den = some x) : x.isRepresentable = true := by
  by_cases hzero : num = 0
  · rw [round, if_pos hzero] at h
    cases h
    exact isRepresentable_zero negative
  · obtain ⟨significand, exponent, hto, heq⟩ :=
      round_eq negative (Nat.pos_of_ne_zero hzero) hden
    rw [heq] at h
    split at h
    · cases h
    · rename_i hle
      cases h
      have hnormal := hto.normal
      simp only [isRepresentable, Bool.and_eq_true, Bool.or_eq_true, decide_eq_true_eq, beq_iff_eq]
      exact ⟨⟨⟨hto.lt, hto.least⟩, not_lt.mp hle⟩, hnormal⟩

/-- Below the bound a fraction rounds to a number, which is at most twice as great, and off by one
part in `2 ^ 53` at most where the fraction is not below one. -/
theorem exists_round (negative : Bool) (num : Nat) {den : Nat} (hden : 0 < den)
    (hlt : (num : ℚ) / den < finiteBound) :
    ∃ x, round negative num den = some x ∧ x.abs ≤ 2 * (num / den) ∧
      (1 ≤ (num : ℚ) / den → |x.abs - num / den| ≤ num / den / 2 ^ 53) := by
  by_cases hzero : num = 0
  · refine ⟨zero negative, by rw [round, if_pos hzero], ?_, ?_⟩
    · rw [abs_zero, hzero]
      norm_num
    · rw [hzero]
      norm_num
  · have hnum : 0 < num := Nat.pos_of_ne_zero hzero
    obtain ⟨significand, exponent, hto, heq⟩ := round_eq negative hnum hden
    have hfinite : ¬exponent > greatestExponent := fun hgt =>
      absurd (hto.overflow hgt) (not_le.mpr hlt)
    rw [if_neg hfinite] at heq
    refine ⟨_, heq, hto.le_two_mul, fun hone => hto.near.trans ?_⟩
    -- from one on the significand has all its bits, and half a unit is one part in `2 ^ 53`
    have hlead : 0 ≤ leadingBit num den := by
      have hlt := hone.trans_lt (leadingBit_spec hnum hden).2
      rw [← zpow_zero (2 : ℚ)] at hlt
      have := (zpow_lt_zpow_iff_right₀ one_lt_two).mp hlt
      omega
    have hmin : unitExponent num den ≠ leastExponent := by
      simp only [unitExponent, leastExponent]
      omega
    have hmany := unitExponent_le hnum hden hmin
    rw [le_div_iff₀ (by positivity)]
    linarith

end Binary64

end SessionArchive.Number
