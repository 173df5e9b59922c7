import SessionArchive.Proofs.Number.Rounding

/-!
# Reading a decimal as a double

When `Binary64.ofScientific?` has an answer. With a negative power of ten it always has one
(`exists_ofScientific?_negSucc`); with another it has one as long as the decimal, with what two
roundings may add to it, stays below `finiteBound` (`exists_ofScientific?_ofNat`). Every answer is
representable.
-/

set_option autoImplicit false

namespace SessionArchive.Number.Binary64

/-! ## Products and quotients -/

theorem magnitude_fst_pos {x : Binary64} (h : 0 < x.abs) : 0 < x.magnitude.1 := by
  rw [← ratio_magnitude, ratio] at h
  by_contra hzero
  have heq : x.magnitude.1 = 0 := by omega
  rw [heq] at h
  norm_num at h

theorem exists_mul {x y : Binary64} (h : x.abs * y.abs < finiteBound) :
    ∃ z, x.mul y = some z ∧ z.isRepresentable = true := by
  have hden : 0 < x.magnitude.2 * y.magnitude.2 :=
    Nat.mul_pos (magnitude_snd_pos x) (magnitude_snd_pos y)
  have hvalue : ((x.magnitude.1 * y.magnitude.1 : Nat) : ℚ) /
      (x.magnitude.2 * y.magnitude.2 : Nat) = x.abs * y.abs := by
    rw [← ratio_magnitude, ← ratio_magnitude, ratio, ratio]
    push_cast
    rw [div_mul_div_comm]
  obtain ⟨z, hz, _⟩ := exists_round x.negative _ hden (hvalue ▸ h)
  exact ⟨z, hz, isRepresentable_of_round hden hz⟩

theorem exists_div {x y : Binary64} (hy : 0 < y.abs) (h : x.abs / y.abs < finiteBound) :
    ∃ z, x.div y = some z ∧ z.isRepresentable = true ∧ z.abs ≤ 2 * (x.abs / y.abs) := by
  have hden : 0 < x.magnitude.2 * y.magnitude.1 :=
    Nat.mul_pos (magnitude_snd_pos x) (magnitude_fst_pos hy)
  have hvalue : ((x.magnitude.1 * y.magnitude.2 : Nat) : ℚ) /
      (x.magnitude.2 * y.magnitude.1 : Nat) = x.abs / y.abs := by
    rw [← ratio_magnitude, ← ratio_magnitude, ratio, ratio]
    push_cast
    rw [div_div_div_eq]
  obtain ⟨z, hz, hdouble, _⟩ := exists_round x.negative _ hden (hvalue ▸ h)
  rw [hvalue] at hdouble
  exact ⟨z, hz, isRepresentable_of_round hden hz, hdouble⟩

/-! ## Powers of ten -/

theorem ten_pow_lt_finiteBound {k : Nat} (hk : k ≤ greatestPower) :
    ((10 ^ k : Nat) : ℚ) < finiteBound := by
  have hgreatest : 10 ^ greatestPower < (2 ^ 54 - 1) * 2 ^ 970 := by decide +kernel
  have hlt : 10 ^ k < (2 ^ 54 - 1) * 2 ^ 970 :=
    (Nat.pow_le_pow_right (by norm_num) hk).trans_lt hgreatest
  rw [finiteBound_eq_cast]
  exact Nat.cast_lt.mpr hlt

theorem exists_powerOfTen {k : Nat} (hk : k ≤ greatestPower) :
    ∃ p, powerOfTen k = some p ∧ |p.abs - 10 ^ k| ≤ 10 ^ k / 2 ^ 53 := by
  have hvalue : ((10 ^ k : Nat) : ℚ) / (1 : Nat) = 10 ^ k := by
    push_cast
    rw [div_one]
  have hlt := ten_pow_lt_finiteBound hk
  obtain ⟨p, hp, _, hnear⟩ := exists_round false (10 ^ k) Nat.one_pos
    (by rw [hvalue]; exact_mod_cast hlt)
  rw [hvalue] at hnear
  exact ⟨p, hp, hnear (one_le_pow₀ (by norm_num))⟩

/-- A power of ten beyond the first is at least two. -/
theorem two_le_of_near {p : Binary64} {k : Nat} (hk : 0 < k)
    (hnear : |p.abs - 10 ^ k| ≤ 10 ^ k / 2 ^ 53) : 2 ≤ p.abs := by
  have hten : (10 : ℚ) ≤ 10 ^ k := le_self_pow₀ (by norm_num) (by omega)
  have hlower := (abs_le.mp hnear).1
  linarith

/-! ## Decimals with a negative power of ten -/

theorem exists_shrink {x : Binary64} (hx : x.isRepresentable = true) (hlt : x.abs < finiteBound)
    (steps : Nat) :
    ∃ y, shrink x steps = some y ∧ y.isRepresentable = true ∧ y.abs ≤ x.abs := by
  induction steps generalizing x with
  | zero => exact ⟨x, rfl, hx, le_rfl⟩
  | succ steps ih =>
    simp only [shrink]
    split
    · exact ⟨x, rfl, hx, le_rfl⟩
    · -- a step divides by a power of ten, which is two at least however it was rounded
      obtain ⟨p, hp, hnear⟩ := exists_powerOfTen (greatestPower.le_refl)
      have htwo := two_le_of_near (by decide) hnear
      have hnonneg := x.abs_nonneg
      have hhalf : x.abs / p.abs ≤ x.abs / 2 := by gcongr
      have hsmaller : x.abs / p.abs < finiteBound := by linarith
      obtain ⟨y, hy, hyRepresentable, hyLe⟩ := exists_div (by linarith) hsmaller
      have hyx : y.abs ≤ x.abs := by linarith
      obtain ⟨z, hz, hzRepresentable, hzLe⟩ := ih hyRepresentable (hyx.trans_lt hlt)
      refine ⟨z, ?_, hzRepresentable, hzLe.trans hyx⟩
      rw [hp, Option.bind_some, hy, Option.bind_some, hz]

theorem two_pow_lt_finiteBound : (2 : ℚ) ^ 65 < finiteBound := by
  have hpow : (1 : ℚ) ≤ 2 ^ 955 := one_le_pow₀ one_le_two
  have hsplit : (2 : ℚ) ^ 970 = 2 ^ 15 * 2 ^ 955 := by rw [← pow_add]
  simp only [finiteBound]
  rw [hsplit]
  generalize (2 : ℚ) ^ 955 = unit at hpow ⊢
  linarith

/-- A decimal with a negative power of ten is never too great. -/
theorem exists_ofScientific?_negSucc (negative : Bool) {significand : Nat}
    (hsignificand : significand < 2 ^ 64) (k : Nat) :
    ∃ x, ofScientific? negative significand (.negSucc k) = some x ∧ x.isRepresentable = true := by
  have hvalue : (significand : ℚ) / (1 : Nat) = significand := by rw [Nat.cast_one, div_one]
  have hsignificandQ : (significand : ℚ) < 2 ^ 64 := by exact_mod_cast hsignificand
  have hbound := two_pow_lt_finiteBound
  obtain ⟨x, hx, hdouble, _⟩ := exists_round negative significand Nat.one_pos
    (by rw [hvalue]; linarith)
  rw [hvalue] at hdouble
  -- the whole steps come first, and one last division brings the rest of the power
  obtain ⟨y, hy, _, hle⟩ := exists_shrink (isRepresentable_of_round Nat.one_pos hx)
    (by linarith) (k / greatestPower)
  have hrest : k % greatestPower + 1 ≤ greatestPower := Nat.mod_lt k (by decide)
  obtain ⟨p, hp, hnear⟩ := exists_powerOfTen hrest
  have htwo := two_le_of_near (Nat.succ_pos _) hnear
  have hnonneg := y.abs_nonneg
  have hhalf : y.abs / p.abs ≤ y.abs / 2 := by gcongr
  obtain ⟨z, hz, hrepresentable, _⟩ := exists_div (x := y) (y := p) (by linarith) (by linarith)
  refine ⟨z, ?_, hrepresentable⟩
  simp only [ofScientific?, hx, hy, hp, hz, Option.bind_some]

/-! ## Decimals with another power of ten -/

/-- A decimal that stays below the bound with two roundings on top is not too great. -/
theorem exists_ofScientific?_ofNat (negative : Bool) {significand k : Nat}
    (hsignificand : 1 ≤ significand) (hk : k ≤ greatestPower)
    (hlt : (significand * 10 ^ k : ℚ) * (1 + 1 / 2 ^ 53) ^ 2 < finiteBound) :
    ∃ x, ofScientific? negative significand (.ofNat k) = some x ∧ x.isRepresentable = true := by
  have hvalue : (significand : ℚ) / (1 : Nat) = significand := by rw [Nat.cast_one, div_one]
  have hone : (1 : ℚ) ≤ significand := by exact_mod_cast hsignificand
  have hten : (1 : ℚ) ≤ 10 ^ k := one_le_pow₀ (by norm_num)
  have hsmaller : (significand : ℚ) < finiteBound := by
    refine lt_of_le_of_lt ?_ hlt
    calc (significand : ℚ) = significand * 1 * 1 := by ring
      _ ≤ significand * 10 ^ k * (1 + 1 / 2 ^ 53) ^ 2 := by
          gcongr
          norm_num
  obtain ⟨x, hx, _, hnearX⟩ := exists_round negative significand Nat.one_pos
    (by rw [hvalue]; exact hsmaller)
  rw [hvalue] at hnearX
  obtain ⟨p, hp, hnearP⟩ := exists_powerOfTen hk
  -- each factor is rounded by one part in `2 ^ 53` at most
  have hxLe : x.abs ≤ significand * (1 + 1 / 2 ^ 53) := by
    have hupper := (abs_le.mp (hnearX hone)).2
    linarith
  have hpLe : p.abs ≤ 10 ^ k * (1 + 1 / 2 ^ 53) := by
    have hupper := (abs_le.mp hnearP).2
    linarith
  have hproduct : x.abs * p.abs < finiteBound := by
    calc x.abs * p.abs
        ≤ (significand * (1 + 1 / 2 ^ 53)) * (10 ^ k * (1 + 1 / 2 ^ 53)) :=
          mul_le_mul hxLe hpLe p.abs_nonneg (by positivity)
      _ = significand * 10 ^ k * (1 + 1 / 2 ^ 53) ^ 2 := by ring
      _ < finiteBound := hlt
  obtain ⟨z, hz, hrepresentable⟩ := exists_mul hproduct
  refine ⟨z, ?_, hrepresentable⟩
  simp only [ofScientific?, hx, hk, hp, hz, Option.bind_some, if_true]

end SessionArchive.Number.Binary64
