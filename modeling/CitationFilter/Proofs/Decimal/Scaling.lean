import CitationFilter.Json.Number
import CitationFilter.Proofs.Decimal.Rounding

/-!
# Scaling by powers of ten

A significand is scaled by dividing it by powers of ten, which always succeeds, or by multiplying it
by one power of ten, which succeeds as long as the two roundings before and the product leave some
room below the limit.
-/

namespace CitationFilter

open Binary64

namespace Json.Number

/-! ## Powers of ten -/

theorem limit_eq : limit = ((twoTo 54 - 1) * twoTo 970 : ℕ) := by
  have hunit : (2 : ℚ) ^ greatestExponent = 2 ^ 970 * 2 := zpow_add_one₀ two_ne_zero 970
  have hpower : ((twoTo 54 - 1 : ℕ) : ℚ) = 2 ^ 54 - 1 := by
    rw [Nat.cast_sub (twoTo_pos 54), cast_twoTo, Nat.cast_one]
  rw [limit, hunit, Nat.cast_mul, hpower, cast_twoTo]
  generalize (2 : ℚ) ^ 970 = unit
  ring

theorem tenTo_le {a b : ℕ} (h : a ≤ b) : tenTo a ≤ tenTo b := Nat.pow_le_pow_right (by decide) h

theorem tenTo_lt_limit {e : ℕ} (h : e ≤ 308) : ((tenTo e : ℕ) : ℚ) < limit := by
  have hgreatest : tenTo 308 < (twoTo 54 - 1) * twoTo 970 := by decide +kernel
  rw [limit_eq]
  exact Nat.cast_lt.mpr ((tenTo_le h).trans_lt hgreatest)

theorem limit_lt_tenTo : limit < ((tenTo 309 : ℕ) : ℚ) := by
  have hleast : (twoTo 54 - 1) * twoTo 970 < tenTo 309 := by decide +kernel
  rw [limit_eq]
  exact Nat.cast_lt.mpr hleast

/-- A power of ten is rounded to a number that is as close as the format allows. -/
theorem exists_powerOfTen {e : ℕ} (h : e ≤ 308) :
    ∃ p, powerOfTen e = some p ∧ 1 ≤ p.magnitude ∧ p.magnitude ≤ 10 ^ e * (1 + 1 / 2 ^ 53) := by
  rcases Nat.eq_zero_or_pos e with rfl | hpos
  · have hone : (⟨false, twoTo 52, -52⟩ : Binary64).magnitude = 1 := by
      rw [magnitude, cast_twoTo, zpow_neg]
      exact mul_inv_cancel₀ (by positivity)
    refine ⟨⟨false, twoTo 52, -52⟩, by decide, hone.ge, hone.le.trans ?_⟩
    norm_num
  · have hratio : ((tenTo e : ℕ) : ℚ) / (1 : ℕ) = 10 ^ e := by
      rw [Nat.cast_one, div_one, cast_tenTo]
    have hten : (10 : ℚ) ≤ 10 ^ e := le_self_pow₀ (by norm_num) hpos.ne'
    have hlt : ((tenTo e : ℕ) : ℚ) / (1 : ℕ) < limit := by
      rw [Nat.cast_one, div_one]
      exact tenTo_lt_limit h
    obtain ⟨p, hp⟩ := exists_nearest_of_lt false Nat.one_pos hlt
    have hclose := abs_magnitude_sub_le Nat.one_pos (by rw [hratio]; linarith) hp
    rw [hratio, abs_le] at hclose
    refine ⟨p, hp, ?_, ?_⟩
    · linarith [hclose.1]
    · linarith [hclose.2]

/-! ## Dividing -/

/-- Dividing by powers of ten stays within the format. -/
theorem exists_divideByTen {x : Binary64} (hx : x.Bounded) (e : ℕ) :
    ∃ y, divideByTen x e = some y ∧ y.Bounded := by
  have hdivide : ∀ {x : Binary64} {e : ℕ}, x.Bounded → e ≤ 308 →
      ∃ y, (powerOfTen e).bind x.div = some y ∧ y.Bounded := by
    intro x e hx he
    obtain ⟨p, hp, hone, -⟩ := exists_powerOfTen he
    obtain ⟨num, den, hden, hratio, hdiv⟩ := div_eq x (zero_lt_one.trans_le hone)
    have hlt : (num : ℚ) / den < limit := by
      rw [hratio]
      exact (div_le_self x.magnitude_nonneg hone).trans_lt hx.magnitude_lt
    obtain ⟨y, hy⟩ := exists_nearest_of_lt (x.negative != p.negative) hden hlt
    refine ⟨y, ?_, bounded_of_nearest hden hy⟩
    rw [hp, Option.bind_some, hdiv, hy]
  induction e using Nat.strongRecOn generalizing x with
  | ind e ih =>
    rw [divideByTen]
    by_cases hsmall : e ≤ 308
    · rw [if_pos hsmall]
      exact hdivide hx hsmall
    rw [if_neg hsmall]
    by_cases hzero : x.isZero
    · rw [if_pos hzero]
      exact ⟨x, rfl, hx⟩
    · obtain ⟨y, hy, hbounded⟩ := hdivide hx (le_refl 308)
      rw [if_neg hzero, hy, Option.bind_some]
      exact ih (e - 308) (by omega) hbounded

/-! ## Scaling -/

theorem greatestSignificand_lt_limit {n : ℕ} (h : n ≤ greatestSignificand) : (n : ℚ) < limit := by
  have hgreatest : greatestSignificand < (twoTo 54 - 1) * twoTo 970 := by decide +kernel
  rw [limit_eq]
  exact Nat.cast_lt.mpr (h.trans_lt hgreatest)

theorem exists_ofNat {n : ℕ} (h : n ≤ greatestSignificand) :
    ∃ x, ofNat n = some x ∧ x.Bounded ∧ x.magnitude ≤ n * (1 + 1 / 2 ^ 53) := by
  have hratio : (n : ℚ) / (1 : ℕ) = n := by rw [Nat.cast_one, div_one]
  have hlt : (n : ℚ) / (1 : ℕ) < limit := by
    rw [hratio]
    exact greatestSignificand_lt_limit h
  obtain ⟨x, hx⟩ := exists_nearest_of_lt false Nat.one_pos hlt
  refine ⟨x, hx, bounded_of_nearest Nat.one_pos hx, ?_⟩
  rcases Nat.eq_zero_or_pos n with rfl | hpos
  · cases hx
    rw [magnitude, zero]
    norm_num
  · have hone : (1 : ℚ) ≤ n := Nat.one_le_cast.mpr hpos
    have hclose := abs_magnitude_sub_le Nat.one_pos (by rwa [hratio]) hx
    rw [hratio, abs_le] at hclose
    linarith [hclose.2]

theorem exists_scaled_of_neg {n : ℕ} (h : n ≤ greatestSignificand) {e : ℤ} (he : e < 0) :
    ∃ x, scaled n e = some x := by
  obtain ⟨x, hx, hbounded, -⟩ := exists_ofNat h
  obtain ⟨y, hy, -⟩ := exists_divideByTen hbounded (-e).toNat
  refine ⟨y, ?_⟩
  rw [scaled, hx, Option.bind_some, if_pos he, hy]

/-- Only zero can be scaled by a power that the format does not have. -/
theorem eq_zero_of_mul_lt_limit {n e : ℕ} (he : 308 < e) (h : (n : ℚ) * 10 ^ e < limit) :
    n = 0 := by
  by_contra hne
  have hone : (1 : ℚ) ≤ n := Nat.one_le_cast.mpr (Nat.pos_of_ne_zero hne)
  have hpower : ((tenTo 309 : ℕ) : ℚ) ≤ 10 ^ e := by
    rw [← cast_tenTo]
    exact Nat.cast_le.mpr (tenTo_le he)
  have hlarge : (10 : ℚ) ^ e ≤ n * 10 ^ e := le_mul_of_one_le_left (by positivity) hone
  linarith [limit_lt_tenTo]

/-- A significand is multiplied by a power of ten, if there is room for the roundings. -/
theorem exists_scaled_of_lt {n : ℕ} (h : n ≤ greatestSignificand) {e : ℤ} (he : 0 ≤ e)
    (hlt : (n : ℚ) * 10 ^ e * (1 + 1 / 2 ^ 53) ^ 2 < limit) : ∃ x, scaled n e = some x := by
  obtain ⟨e, rfl⟩ := Int.eq_ofNat_of_zero_le he
  obtain ⟨x, hx, -, hle⟩ := exists_ofNat h
  rw [zpow_natCast] at hlt
  rw [scaled, hx, Option.bind_some, if_neg (not_lt.mpr he), Int.toNat_natCast]
  by_cases hsmall : (e : ℤ) ≤ 308
  · obtain ⟨p, hp, -, hpower⟩ := exists_powerOfTen (Int.ofNat_le.mp hsmall)
    obtain ⟨num, den, hden, hratio, hmul⟩ := mul_eq x p
    have hproduct : (num : ℚ) / den < limit := by
      rw [hratio]
      calc x.magnitude * p.magnitude
          ≤ n * (1 + 1 / 2 ^ 53) * (10 ^ e * (1 + 1 / 2 ^ 53)) := by
            gcongr
            exact p.magnitude_nonneg
        _ = n * 10 ^ e * (1 + 1 / 2 ^ 53) ^ 2 := by ring
        _ < limit := hlt
    obtain ⟨y, hy⟩ := exists_nearest_of_lt (x.negative != p.negative) hden hproduct
    exact ⟨y, by rw [if_pos hsmall, hp, Option.bind_some, hmul, hy]⟩
  · have hgrows : (n : ℚ) * 10 ^ e ≤ n * 10 ^ e * (1 + 1 / 2 ^ 53) ^ 2 :=
      le_mul_of_one_le_right (by positivity) (by norm_num)
    have hzero : n = 0 := eq_zero_of_mul_lt_limit (by omega) (hgrows.trans_lt hlt)
    subst hzero
    cases hx
    exact ⟨zero false, by rw [if_neg hsmall]; rfl⟩

/-- What has been scaled is a number of the format. -/
theorem bounded_of_scaled {n : ℕ} {e : ℤ} {x : Binary64} (h : scaled n e = some x) : x.Bounded := by
  obtain ⟨y, hy, h⟩ := Option.bind_eq_some_iff.mp h
  have hbounded : y.Bounded := bounded_of_nearest Nat.one_pos hy
  split at h
  · obtain ⟨z, hz, hwithin⟩ := exists_divideByTen hbounded (-e).toNat
    cases h.symm.trans hz
    exact hwithin
  split at h
  · obtain ⟨p, -, hmul⟩ := Option.bind_eq_some_iff.mp h
    obtain ⟨num, den, hden, -, heq⟩ := mul_eq y p
    rw [heq] at hmul
    exact bounded_of_nearest hden hmul
  split at h
  · cases h
    exact hbounded
  · cases h

end Json.Number

end CitationFilter
