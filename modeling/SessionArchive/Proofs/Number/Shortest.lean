import Mathlib.Data.Nat.Cast.Order.Field
import SessionArchive.Number.Shortest
import SessionArchive.Proofs.Number.Scientific
import SessionArchive.Proofs.Text.Digits

/-!
# Reading back the shortest decimal

What `shortest` finds is a decimal of a positive number of at most seventeen digits that is not
above the interval of the number (`shortest_isNear`), and so `Binary64.ofScientific?` has an answer
for it: `exists_ofScientific?_shortest`. Only for the two greatest numbers is the bound on the
roundings too coarse, and their decimals are computed.
-/

set_option autoImplicit false

namespace SessionArchive.Number

/-! ## The leading digit -/

theorem decimal_bounds {n : Nat} (h : 0 < n) :
    (10 : ℚ) ^ (((Text.decimal n).length : Int) - 1) ≤ n ∧
      (n : ℚ) < 10 ^ (((Text.decimal n).length : Int) - 1 + 1) := by
  have hpos := Text.length_decimal_pos n
  constructor
  · have hle := Text.ten_pow_length_decimal_le h
    have hcast : ((Text.decimal n).length : Int) - 1 = ((Text.decimal n).length - 1 : Nat) := by
      omega
    rw [hcast, zpow_natCast]
    exact_mod_cast hle
  · have hlt := Text.lt_ten_pow_length_decimal n
    rw [sub_add_cancel, zpow_natCast]
    exact_mod_cast hlt

theorem leadingDigit_spec {num den : Nat} (hnum : 0 < num) (hden : 0 < den) :
    (10 : ℚ) ^ leadingDigit num den ≤ num / den ∧
      (num : ℚ) / den < 10 ^ (leadingDigit num den + 1) := by
  let guess : Int := ((Text.decimal num).length : Int) - (Text.decimal den).length
  have hguess : guess =
      ((Text.decimal num).length : Int) - 1 - ((Text.decimal den).length - 1) := by
    omega
  have hpos : 0 < (scale 10 num den (-guess)).2 := scale_snd_pos (by norm_num) hden (-guess)
  have hratio := ratio_scale (by norm_num : 0 < 10) num den (-guess)
  rw [Nat.cast_ofNat, zpow_neg, ← div_eq_mul_inv] at hratio
  have hlead : leadingDigit num den =
      if (scale 10 num den (-guess)).1 < (scale 10 num den (-guess)).2 then guess - 1
      else guess := rfl
  rw [hlead, if_congr (fst_lt_snd_iff hpos (by positivity) hratio) rfl rfl, hguess]
  exact leading_spec (by norm_num) (Nat.cast_pos.mpr hden) (decimal_bounds hnum)
    (decimal_bounds hden)

theorem leadingDigit_eq {num den : Nat} (hnum : 0 < num) (hden : 0 < den) {lead : Int}
    (hle : (10 : ℚ) ^ lead ≤ num / den) (hlt : (num : ℚ) / den < 10 ^ (lead + 1)) :
    leadingDigit num den = lead := by
  have hten : (1 : ℚ) < 10 := by norm_num
  obtain ⟨hleading, hleadingLt⟩ := leadingDigit_spec hnum hden
  have hupper := (zpow_lt_zpow_iff_right₀ hten).mp (hleading.trans_lt hlt)
  have hlower := (zpow_lt_zpow_iff_right₀ hten).mp (hle.trans_lt hleadingLt)
  omega

/-! ## Grids -/

theorem le_of_contains {i : Interval} {q : Nat × Nat} (h : i.contains q = true) :
    i.low.1 * q.2 ≤ q.1 * i.low.2 ∧ q.1 * i.high.2 ≤ i.high.1 * q.2 := by
  simp only [Interval.contains] at h
  -- with its ends or without them
  split at h
  · simpa only [Bool.and_eq_true, decide_eq_true_eq] using h
  · simp only [Bool.and_eq_true, decide_eq_true_eq] at h
    omega

/-- The decimal of `digits` units of `10 ^ exponent`. -/
def Decimal.value (d : Decimal) : ℚ := d.digits * 10 ^ d.exponent

/-- What lies in an interval above zero is positive and not above the interval. -/
theorem pos_of_contains {i : Interval} (hlow : 0 < i.low.1) (hhigh : 0 < i.high.2) {d : Decimal}
    (h : i.contains (scale 10 d.digits 1 d.exponent) = true) :
    0 < d.digits ∧ d.value ≤ ratio i.high := by
  have hpos : 0 < (scale 10 d.digits 1 d.exponent).2 := scale_snd_pos (by norm_num) Nat.one_pos _
  have hvalue : ratio (scale 10 d.digits 1 d.exponent) = d.value := by
    rw [ratio_scale (by norm_num), Nat.cast_one, div_one, Nat.cast_ofNat, Decimal.value]
  obtain ⟨habove, hbelow⟩ := le_of_contains h
  constructor
  · rcases Nat.eq_zero_or_pos d.digits with hzero | hdigits
    · -- zero is below the interval
      have hnone : (scale 10 d.digits 1 d.exponent).1 = 0 := by
        rw [hzero]
        cases d.exponent with
        | ofNat k => exact Nat.zero_mul _
        | negSucc k => rfl
      rw [hnone, Nat.zero_mul] at habove
      have := Nat.mul_pos hlow hpos
      omega
    · exact hdigits
  · have hposQ : (0 : ℚ) < (scale 10 d.digits 1 d.exponent).2 := by exact_mod_cast hpos
    have hhighQ : (0 : ℚ) < i.high.2 := by exact_mod_cast hhigh
    rw [← hvalue, ratio, ratio, div_le_div_iff₀ hposQ hhighQ]
    exact_mod_cast hbelow

/-- The number of units of `10 ^ k` in a fraction, rounded down. -/
def unitsBelow (num den : Nat) (k : Int) : Nat :=
  (scale 10 num den (-k)).1 / (scale 10 num den (-k)).2

theorem onGrid_eq_some {i : Interval} {num den : Nat} {k : Int} {d : Decimal}
    (h : onGrid i num den k = some d) :
    d.exponent = k ∧ d.digits ≤ unitsBelow num den k + 1 ∧
      i.contains (scale 10 d.digits 1 d.exponent) = true := by
  simp only [onGrid] at h
  split at h
  · rename_i hboth
    rw [Bool.and_eq_true] at hboth
    cases h
    split
    · exact ⟨rfl, le_rfl, hboth.2⟩
    · exact ⟨rfl, Nat.le_succ _, hboth.1⟩
  · split at h
    · rename_i hlower
      cases h
      exact ⟨rfl, Nat.le_succ _, hlower⟩
    · split at h
      · rename_i hupper
        cases h
        exact ⟨rfl, le_rfl, hupper⟩
      · cases h

theorem unitsBelow_mul_le (num den : Nat) (k : Int) :
    (unitsBelow num den k : ℚ) * 10 ^ k ≤ num / den := by
  have hle : (unitsBelow num den k : ℚ) ≤ ratio (scale 10 num den (-k)) := Nat.cast_div_le
  have hunit : (0 : ℚ) < 10 ^ k := by positivity
  calc (unitsBelow num den k : ℚ) * 10 ^ k ≤ ratio (scale 10 num den (-k)) * 10 ^ k := by gcongr
    _ = num / den := ratio_scale_neg_mul (by norm_num) num den k

theorem lt_unitsBelow_succ_mul (num : Nat) {den : Nat} (hden : 0 < den) (k : Int) :
    (num : ℚ) / den < (unitsBelow num den k + 1) * 10 ^ k := by
  have hpos : 0 < (scale 10 num den (-k)).2 := scale_snd_pos (by norm_num) hden (-k)
  have hposQ : (0 : ℚ) < (scale 10 num den (-k)).2 := by exact_mod_cast hpos
  have hunit : (0 : ℚ) < 10 ^ k := by positivity
  have hlt : ratio (scale 10 num den (-k)) < unitsBelow num den k + 1 := by
    rw [ratio, div_lt_iff₀ hposQ]
    exact_mod_cast Nat.lt_mul_of_div_lt (Nat.lt_succ_self _) hpos
  calc (num : ℚ) / den = ratio (scale 10 num den (-k)) * 10 ^ k :=
        (ratio_scale_neg_mul (by norm_num) num den k).symm
    _ < (unitsBelow num den k + 1) * 10 ^ k := by gcongr

/-! ## The first hit -/

/-- A decimal of at most seventeen digits that is positive and not above the interval of a number,
and not too small for a text. -/
structure IsNear (x : Binary64) (d : Decimal) : Prop where
  pos : 0 < d.digits
  digits_le : d.digits ≤ 10 ^ 17
  value_le : d.value ≤ (2 * x.significand + 1) * 2 ^ (x.exponent - 1)
  exponent_ge : -400 ≤ d.exponent

variable {x : Binary64}

theorem ratio_high (x : Binary64) :
    ratio x.interval.high = (2 * x.significand + 1) * 2 ^ (x.exponent - 1) := by
  simp only [Binary64.interval]
  rw [ratio_scale (by norm_num), Nat.cast_one, div_one]
  push_cast
  rfl

theorem high_snd_pos (x : Binary64) : 0 < x.interval.high.2 :=
  scale_snd_pos (by norm_num) Nat.one_pos _

theorem scale_fst_pos {n : Nat} (h : 0 < n) (e : Int) : 0 < (scale 2 n 1 e).1 := by
  cases e with
  | ofNat k => exact Nat.mul_pos h (Nat.two_pow_pos k)
  | negSucc k => exact h

theorem low_fst_pos (hpos : 0 < x.significand) : 0 < x.interval.low.1 := by
  simp only [Binary64.interval]
  split
  · exact scale_fst_pos (by omega) _
  · exact scale_fst_pos (by omega) _

theorem unitsBelow_lt {num den : Nat} (hnum : 0 < num) (hden : 0 < den) {k : Int}
    (hk : leadingDigit num den - 16 ≤ k) : unitsBelow num den k < 10 ^ 17 := by
  have hunit : (0 : ℚ) < 10 ^ k := by positivity
  have hlt : (unitsBelow num den k : ℚ) * 10 ^ k < 10 ^ 17 * 10 ^ k := by
    calc (unitsBelow num den k : ℚ) * 10 ^ k ≤ num / den := unitsBelow_mul_le num den k
      _ < 10 ^ (leadingDigit num den + 1) := (leadingDigit_spec hnum hden).2
      _ ≤ 10 ^ (17 + k) := zpow_le_zpow_right₀ (by norm_num) (by omega)
      _ = 10 ^ 17 * 10 ^ k := by
          rw [zpow_add₀ (by norm_num)]
          norm_num
  exact_mod_cast lt_of_mul_lt_mul_right hlt hunit.le

theorem abs_eq_div (x : Binary64) : (x.magnitude.1 : ℚ) / x.magnitude.2 = x.abs :=
  Binary64.ratio_magnitude x

theorem abs_pos (hpos : 0 < x.significand) : 0 < x.abs := by
  have hsignificand : (0 : ℚ) < x.significand := by exact_mod_cast hpos
  simp only [Binary64.abs]
  positivity

theorem magnitude_pos (hpos : 0 < x.significand) : 0 < x.magnitude.1 :=
  Binary64.magnitude_fst_pos (abs_pos hpos)

/-- No number but zero is below the three hundred and thirtieth place after the point. -/
theorem leadingDigit_ge (hpos : 0 < x.significand) (hleast : Binary64.leastExponent ≤ x.exponent) :
    -330 ≤ leadingDigit x.magnitude.1 x.magnitude.2 := by
  have hten : (1 : ℚ) < 10 := by norm_num
  have hone : (1 : ℚ) ≤ x.significand := by exact_mod_cast hpos
  -- the least unit is `2 ^ -1074`, and no number but zero is below it
  have hpower : (2 : ℚ) ^ 1074 < 10 ^ 330 := by
    have hnat : 2 ^ 1074 < 10 ^ 330 := by decide +kernel
    exact_mod_cast hnat
  have hsmall : (10 : ℚ) ^ (-330 : Int) < x.abs := by
    calc (10 : ℚ) ^ (-330 : Int) < 2 ^ (-1074 : Int) := by
          rw [zpow_neg, zpow_neg]
          exact inv_strictAnti₀ (by positivity) hpower
      _ ≤ 2 ^ x.exponent := zpow_le_zpow_right₀ one_le_two hleast
      _ = 1 * 2 ^ x.exponent := (one_mul _).symm
      _ ≤ x.abs := by
          simp only [Binary64.abs]
          gcongr
  have hlt := (leadingDigit_spec (magnitude_pos hpos) (Binary64.magnitude_snd_pos x)).2
  rw [abs_eq_div] at hlt
  have := (zpow_lt_zpow_iff_right₀ hten).mp (hsmall.trans hlt)
  omega

theorem onGrid_isNear (hpos : 0 < x.significand) (hleast : Binary64.leastExponent ≤ x.exponent)
    {k : Int} (hk : leadingDigit x.magnitude.1 x.magnitude.2 - 16 ≤ k) {d : Decimal}
    (h : onGrid x.interval x.magnitude.1 x.magnitude.2 k = some d) : IsNear x d := by
  obtain ⟨hexponent, hle, hcontains⟩ := onGrid_eq_some h
  obtain ⟨hdigits, hvalue⟩ := pos_of_contains (low_fst_pos hpos) (high_snd_pos x) hcontains
  have hlt := unitsBelow_lt (magnitude_pos hpos) (Binary64.magnitude_snd_pos x) hk
  have hge := leadingDigit_ge hpos hleast
  exact ⟨hdigits, by omega, ratio_high x ▸ hvalue, by omega⟩

/-- The last grid: its lower neighbour has seventeen digits. -/
theorem lastGrid_isNear (hpos : 0 < x.significand)
    (hleast : Binary64.leastExponent ≤ x.exponent) {k : Int}
    (hk : leadingDigit x.magnitude.1 x.magnitude.2 - 16 = k) :
    IsNear x ⟨unitsBelow x.magnitude.1 x.magnitude.2 k, k⟩ := by
  have hge := leadingDigit_ge hpos hleast
  have hlt := unitsBelow_lt (magnitude_pos hpos) (Binary64.magnitude_snd_pos x) hk.le
  refine ⟨?_, hlt.le, ?_, by show -400 ≤ k; omega⟩
  · -- sixteen places above the last one there is a digit, so the units are not none
    have hunit : (0 : ℚ) < 10 ^ k := by positivity
    have hlead := (leadingDigit_spec (magnitude_pos hpos) (Binary64.magnitude_snd_pos x)).1
    have hsucc := lt_unitsBelow_succ_mul x.magnitude.1 (Binary64.magnitude_snd_pos x) k
    have hone : (1 : ℚ) * 10 ^ k < (unitsBelow x.magnitude.1 x.magnitude.2 k + 1) * 10 ^ k := by
      calc (1 : ℚ) * 10 ^ k = 10 ^ k := one_mul _
        _ ≤ 10 ^ leadingDigit x.magnitude.1 x.magnitude.2 :=
            zpow_le_zpow_right₀ (by norm_num) (by omega)
        _ ≤ x.magnitude.1 / x.magnitude.2 := hlead
        _ < _ := hsucc
    have hpositive := lt_of_mul_lt_mul_right hone hunit.le
    have hnat : 1 < unitsBelow x.magnitude.1 x.magnitude.2 k + 1 := by exact_mod_cast hpositive
    exact Nat.lt_of_succ_lt_succ hnat
  · have hbelow := unitsBelow_mul_le x.magnitude.1 x.magnitude.2 k
    rw [abs_eq_div] at hbelow
    apply hbelow.trans
    -- the number itself is half a unit below the upper end
    have hhalf : (2 : ℚ) ^ x.exponent = 2 * 2 ^ (x.exponent - 1) := by
      rw [← zpow_one_add₀ two_ne_zero]
      congr 1
      omega
    have hpositive : (0 : ℚ) < 2 ^ (x.exponent - 1) := by positivity
    simp only [Binary64.abs]
    rw [hhalf]
    linarith

theorem shortestFrom_isNear (hpos : 0 < x.significand)
    (hleast : Binary64.leastExponent ≤ x.exponent) {count more : Nat} (h : count + more = 18) :
    IsNear x (shortestFrom x.interval x.magnitude.1 x.magnitude.2
      (leadingDigit x.magnitude.1 x.magnitude.2) count more) := by
  induction more generalizing count with
  -- seventeen counts were tried, and the eighteenth takes the lower neighbour untested
  | zero => exact lastGrid_isNear hpos hleast rfl
  | succ more ih =>
    simp only [shortestFrom]
    split
    · rename_i d hd
      exact onGrid_isNear hpos hleast (by omega) hd
    · exact ih (by omega)

/-! ## Trailing zeros -/

theorem IsNear.strip {d : Decimal} (h : IsNear x d) (fuel : Nat) : IsNear x (d.strip fuel) := by
  induction fuel generalizing d with
  | zero => exact h
  | succ fuel ih =>
    simp only [Decimal.strip]
    split
    · rename_i hzero
      apply ih
      have hdigits : d.digits = 10 * (d.digits / 10) := by omega
      have hle := h.digits_le
      have hge := h.exponent_ge
      refine ⟨by show 0 < d.digits / 10; omega, by show d.digits / 10 ≤ 10 ^ 17; omega, ?_,
        by show -400 ≤ d.exponent + 1; omega⟩
      -- a zero less and an exponent more are the same decimal
      have hvalue : Decimal.value ⟨d.digits / 10, d.exponent + 1⟩ = d.value := by
        have hcast : (d.digits : ℚ) = 10 * (d.digits / 10 : Nat) := by exact_mod_cast hdigits
        rw [Decimal.value, Decimal.value, hcast, zpow_add_one₀ (by norm_num)]
        ring
      rw [hvalue]
      exact h.value_le
    · exact h

theorem shortest_isNear (hpos : 0 < x.significand)
    (hleast : Binary64.leastExponent ≤ x.exponent) : IsNear x (shortest x) :=
  (shortestFrom_isNear hpos hleast rfl).strip 20

/-! ## Reading it back -/

/-- The greatest of what two roundings still keep below the bound, in units of `2 ^ 970`. -/
theorem lt_finiteBound_of_le {value : ℚ} (h : value ≤ (2 ^ 54 - 5) * 2 ^ 970) :
    value * (1 + 1 / 2 ^ 53) ^ 2 < Binary64.finiteBound := by
  have hunit : (0 : ℚ) < 2 ^ 970 := pow_pos two_pos 970
  simp only [Binary64.finiteBound]
  generalize (2 : ℚ) ^ 970 = unit at h hunit ⊢
  calc value * (1 + 1 / 2 ^ 53) ^ 2 ≤ (2 ^ 54 - 5) * unit * (1 + 1 / 2 ^ 53) ^ 2 := by gcongr
    _ < (2 ^ 54 - 1) * unit := by linarith

theorem bounds_of_isRepresentable (hx : x.isRepresentable = true) :
    x.significand < 2 ^ 53 ∧ Binary64.leastExponent ≤ x.exponent ∧ x.exponent ≤ 971 := by
  simp only [Binary64.isRepresentable, Bool.and_eq_true, decide_eq_true_eq] at hx
  rcases hx with ⟨⟨⟨hlt, hleast⟩, hgreatest⟩, -⟩
  exact ⟨hlt, hleast, hgreatest⟩

theorem leastExponent_le (hx : x.isRepresentable = true) :
    Binary64.leastExponent ≤ x.exponent := (bounds_of_isRepresentable hx).2.1

theorem high_le_finiteBound (hx : x.isRepresentable = true) :
    (2 * (x.significand : ℚ) + 1) * 2 ^ (x.exponent - 1) ≤ Binary64.finiteBound := by
  obtain ⟨hlt, -, hgreatest⟩ := bounds_of_isRepresentable hx
  have hle : (x.significand : ℚ) + 1 ≤ 2 ^ 53 := by exact_mod_cast hlt
  have hunit : (2 : ℚ) ^ (x.exponent - 1) ≤ 2 ^ ((970 : Nat) : Int) :=
    zpow_le_zpow_right₀ one_le_two (by omega)
  rw [zpow_natCast] at hunit
  simp only [Binary64.finiteBound]
  generalize (2 : ℚ) ^ 970 = unit at hunit ⊢
  gcongr
  linarith

theorem IsNear.exponent_le {d : Decimal} (h : IsNear x d) (hx : x.isRepresentable = true) :
    d.exponent ≤ Binary64.greatestPower := by
  have hone : (1 : ℚ) ≤ d.digits := by exact_mod_cast h.pos
  have hpower : Binary64.finiteBound < 10 ^ 309 := by
    have hnat : (2 ^ 54 - 1) * 2 ^ 970 < 10 ^ 309 := by decide +kernel
    rw [Binary64.finiteBound_eq_cast]
    exact_mod_cast hnat
  have hlt : (10 : ℚ) ^ d.exponent < 10 ^ ((309 : Nat) : Int) := by
    calc (10 : ℚ) ^ d.exponent = 1 * 10 ^ d.exponent := (one_mul _).symm
      _ ≤ d.value := by
          simp only [Decimal.value]
          gcongr
      _ ≤ Binary64.finiteBound := h.value_le.trans (high_le_finiteBound hx)
      _ < 10 ^ ((309 : Nat) : Int) := by rwa [zpow_natCast]
  have := (zpow_lt_zpow_iff_right₀ (by norm_num : (1 : ℚ) < 10)).mp hlt
  simp only [Binary64.greatestPower]
  omega

theorem high_le_of_significand (hexponent : x.exponent = 971)
    (hlt : x.significand < 2 ^ 53 - 2) :
    (2 * (x.significand : ℚ) + 1) * 2 ^ (x.exponent - 1) ≤ (2 ^ 54 - 5) * 2 ^ 970 := by
  have hle : (x.significand : ℚ) + 3 ≤ 2 ^ 53 := by
    have hnat : x.significand + 3 ≤ 2 ^ 53 := by omega
    exact_mod_cast hnat
  have hunit : (2 : ℚ) ^ ((971 : Int) - 1) = 2 ^ 970 := by
    rw [show (971 : Int) - 1 = (970 : Nat) by norm_num, zpow_natCast]
  rw [hexponent, hunit]
  have hpositive : (0 : ℚ) < 2 ^ 970 := pow_pos two_pos 970
  generalize (2 : ℚ) ^ 970 = unit at hpositive ⊢
  gcongr
  linarith

theorem high_le_of_exponent (hexponent : x.exponent ≤ 970) (hlt : x.significand < 2 ^ 53) :
    (2 * (x.significand : ℚ) + 1) * 2 ^ (x.exponent - 1) ≤ (2 ^ 54 - 5) * 2 ^ 970 := by
  have hle : (x.significand : ℚ) + 1 ≤ 2 ^ 53 := by exact_mod_cast hlt
  have hunit : (2 : ℚ) ^ (x.exponent - 1) ≤ 2 ^ ((969 : Nat) : Int) :=
    zpow_le_zpow_right₀ one_le_two (by omega)
  rw [zpow_natCast] at hunit
  -- an exponent less leaves half of the bound free
  rw [show (2 : ℚ) ^ 970 = 2 ^ 1 * 2 ^ 969 by rw [← pow_add]]
  have hpositive : (0 : ℚ) < 2 ^ 969 := pow_pos two_pos 969
  generalize (2 : ℚ) ^ 969 = unit at hunit hpositive ⊢
  have hproduct : (x.significand : ℚ) * unit ≤ (2 ^ 53 - 1) * unit := by
    gcongr
    linarith
  calc (2 * (x.significand : ℚ) + 1) * 2 ^ (x.exponent - 1)
      ≤ (2 * (x.significand : ℚ) + 1) * unit := by gcongr
    _ ≤ (2 ^ 54 - 5) * (2 ^ 1 * unit) := by linarith

/-- All numbers but the two greatest of each sign are far enough below the bound. -/
theorem high_le_or_greatest (hx : x.isRepresentable = true) :
    (2 * (x.significand : ℚ) + 1) * 2 ^ (x.exponent - 1) ≤ (2 ^ 54 - 5) * 2 ^ 970 ∨
      x.exponent = 971 ∧ (x.significand = 2 ^ 53 - 2 ∨ x.significand = 2 ^ 53 - 1) := by
  obtain ⟨hlt, -, hgreatest⟩ := bounds_of_isRepresentable hx
  by_cases hlast : x.exponent = 971
  · by_cases htop : x.significand < 2 ^ 53 - 2
    · exact .inl (high_le_of_significand hlast htop)
    · exact .inr ⟨hlast, by omega⟩
  · exact .inl (high_le_of_exponent (by omega) hlt)

theorem shortest_eq {lead : Int} (hpos : 0 < x.significand)
    (hle : (10 : ℚ) ^ lead ≤ x.abs) (hlt : x.abs < 10 ^ (lead + 1)) :
    shortest x = (shortestFrom x.interval x.magnitude.1 x.magnitude.2 lead 1 17).strip 20 := by
  rw [← abs_eq_div] at hle hlt
  rw [← leadingDigit_eq (magnitude_pos hpos) (Binary64.magnitude_snd_pos x) hle hlt]
  rfl

/-- The two greatest numbers have three hundred and nine digits before the point. -/
theorem abs_bounds_of_greatest (hexponent : x.exponent = 971)
    (hsignificand : x.significand = 2 ^ 53 - 2 ∨ x.significand = 2 ^ 53 - 1) :
    (10 : ℚ) ^ ((308 : Nat) : Int) ≤ x.abs ∧ x.abs < 10 ^ (((308 : Nat) : Int) + 1) := by
  have habs : x.abs = ((x.significand * 2 ^ 971 : Nat) : ℚ) := by
    rw [Binary64.abs, hexponent, Nat.cast_mul, Nat.cast_pow, ← zpow_natCast]
    rfl
  rw [habs]
  constructor
  · have hnat : 10 ^ 308 ≤ (2 ^ 53 - 2) * 2 ^ 971 := by decide +kernel
    have htrans : 10 ^ 308 ≤ x.significand * 2 ^ 971 :=
      hnat.trans (Nat.mul_le_mul_right _ (by omega))
    rw [zpow_natCast]
    exact_mod_cast htrans
  · have hnat : (2 ^ 53 - 1) * 2 ^ 971 < 10 ^ 309 := by decide +kernel
    have htrans : x.significand * 2 ^ 971 < 10 ^ 309 :=
      (Nat.mul_le_mul_right _ (by omega)).trans_lt hnat
    rw [show ((308 : Nat) : Int) + 1 = (309 : Nat) by norm_num, zpow_natCast]
    exact_mod_cast htrans

/-- The decimals of the two greatest numbers read back as well. -/
theorem any_ofScientific?_greatest (hexponent : x.exponent = 971)
    (hsignificand : x.significand = 2 ^ 53 - 2 ∨ x.significand = 2 ^ 53 - 1) (negative : Bool) :
    (Binary64.ofScientific? negative (shortest x).digits (shortest x).exponent).any
      Binary64.isRepresentable = true := by
  have hpos : 0 < x.significand := by omega
  obtain ⟨hle, hlt⟩ := abs_bounds_of_greatest hexponent hsignificand
  -- with its leading digit given, `shortest` is computed without the search for it
  rw [shortest_eq hpos hle hlt]
  rcases x with ⟨sign, significand, exponent⟩
  dsimp only at hexponent hsignificand
  subst hexponent
  clear hpos hle hlt
  rcases hsignificand with rfl | rfl <;>
  · revert sign negative
    decide +kernel

/-- The shortest decimal of a number reads back, with either sign. -/
theorem exists_ofScientific?_shortest (hx : x.isRepresentable = true) (hpos : 0 < x.significand)
    (negative : Bool) :
    ∃ y, Binary64.ofScientific? negative (shortest x).digits (shortest x).exponent = some y ∧
      y.isRepresentable = true := by
  have hnear := shortest_isNear hpos (leastExponent_le hx)
  have hgreatest := hnear.exponent_le hx
  cases hexponent : (shortest x).exponent with
  -- a decimal with places after the point is below the bound by its few digits alone
  | negSucc k =>
    have hle := hnear.digits_le
    exact Binary64.exists_ofScientific?_negSucc negative (by omega) k
  | ofNat k =>
    -- half a unit above the two greatest numbers is too far, so these are computed
    rcases high_le_or_greatest hx with hhigh | ⟨hlast, htop⟩
    · have hvalue := hnear.value_le.trans hhigh
      rw [Decimal.value, hexponent, Int.ofNat_eq_natCast, zpow_natCast] at hvalue
      rw [hexponent, Int.ofNat_eq_natCast] at hgreatest
      exact Binary64.exists_ofScientific?_ofNat negative hnear.pos (by omega)
        (lt_finiteBound_of_le hvalue)
    · have hany := any_ofScientific?_greatest hlast htop negative
      rw [hexponent, Option.any_eq_true] at hany
      exact hany

end SessionArchive.Number
