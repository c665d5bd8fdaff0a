import CitationFilter.Proofs.Decimal.Scaling
import CitationFilter.Proofs.Decimal.Shortest

/-!
# Great numbers are written as whole numbers

The shortest decimal of a number has at most seventeen digits, so the decimal of a number with more
digits before the point ends in zeros. Without an exponent it is then the text of a natural number,
which need not be the number that has been rounded.
-/

namespace CitationFilter

namespace Decimal

theorem toDigits_mul_tenTo {n : ℕ} (hn : 0 < n) (k : ℕ) :
    Nat.toDigits 10 (n * tenTo k) = Nat.toDigits 10 n ++ List.replicate k '0' := by
  induction k with
  | zero =>
    have hone : tenTo 0 = 1 := rfl
    rw [hone, Nat.mul_one, List.replicate_zero, List.append_nil]
  | succ k ih =>
    have hmul : n * tenTo (k + 1) = 10 * (n * tenTo k) + 0 := by
      rw [tenTo_succ]
      ring
    have hpos : 0 < n * tenTo k := Nat.mul_pos hn (tenTo_pos k)
    rw [hmul, ← Nat.toDigits_append_toDigits (by decide) hpos (by decide), ih,
      List.replicate_succ', List.append_assoc]
    rfl

/-- The natural number that a decimal without a fraction stands for. -/
def whole (d : Decimal) : ℕ := d.digits * tenTo d.exponent.toNat

theorem positional_of_nonneg {d : Decimal} (hdigits : 0 < d.digits) (he : 0 ≤ d.exponent) :
    d.positional [] = Nat.toDigits 10 d.whole := by
  have hlength : 0 < d.characters.length := Nat.length_toDigits_pos
  rw [positional, if_neg (by omega), if_pos he, List.append_nil, whole, toDigits_mul_tenTo hdigits]
  rfl

theorem hundred_dvd_whole {d : Decimal} (he : 2 ≤ d.exponent) : 100 ∣ d.whole := by
  have hpower : tenTo 2 ∣ tenTo d.exponent.toNat := Nat.pow_dvd_pow 10 (by omega)
  exact dvd_mul_of_dvd_right hpower d.digits

theorem exponent_le_stripZeros (fuel : ℕ) (d : Decimal) :
    d.exponent ≤ (stripZeros fuel d).exponent := by
  induction fuel generalizing d with
  | zero => exact le_refl _
  | succ fuel ih =>
    rw [stripZeros]
    split
    · exact (Int.le_add_one (le_refl _)).trans (ih _)
    · exact le_refl _

end Decimal

namespace Binary64

variable {x : Binary64}

theorem exponent_of_shortestAt {tie : Tie} {e : ℤ} {d : Decimal} (h : shortestAt tie x e = some d) :
    d.exponent = e := by
  rw [shortestAt] at h
  split at h
  · cases h
    split
    · rfl
    · rfl
  · cases h
    rfl
  · cases h
    rfl
  · cases h

/-- The last digit is at most sixteen places behind the first. -/
theorem leadingPower_le_exponent (hx : 0 < x.mantissa) (tie : Tie) :
    leadingPower x.ratio.1 x.ratio.2 - 16 ≤ (x.shortest tie).exponent := by
  have hzero : x.isZero = false := decide_eq_false hx.ne'
  rw [shortest, hzero]
  dsimp only
  rw [if_neg Bool.false_ne_true]
  split
  · rename_i d hfound
    obtain ⟨n, hn, hat⟩ := List.exists_of_findSome?_eq_some hfound
    have hexponent := exponent_of_shortestAt hat
    have hle := Decimal.exponent_le_stripZeros 400 d
    have hlast : n ≤ 16 := Nat.le_of_lt_succ (List.mem_range.mp hn)
    omega
  · exact le_refl _

/-- The shortest decimal of a number with more than eighteen digits before the point ends in at
least two zeros. -/
theorem two_le_exponent_shortest (hx : (10 : ℚ) ^ 18 ≤ x.magnitude) (tie : Tie) :
    0 < (x.shortest tie).digits ∧ 2 ≤ (x.shortest tie).exponent := by
  have hmagnitude : 0 < x.magnitude := lt_of_lt_of_le (by norm_num) hx
  have hmantissa : 0 < x.mantissa := by
    refine Nat.pos_of_ne_zero fun hzero ↦ ?_
    rw [magnitude, hzero, Nat.cast_zero, zero_mul] at hmagnitude
    exact lt_irrefl 0 hmagnitude
  refine ⟨(written_shortest hmantissa tie).digits_pos, ?_⟩
  have hleading := isLeading_leadingPower (ratio_fst_pos hmagnitude) x.ratio_snd_pos
  rw [ratio_div] at hleading
  have hpower : (10 : ℚ) ^ (18 : ℤ) < 10 ^ (leadingPower x.ratio.1 x.ratio.2 + 1) := by
    refine lt_of_le_of_lt ?_ hleading.2
    exact_mod_cast hx
  have hfirst := (zpow_lt_zpow_iff_right₀ (by norm_num : (1 : ℚ) < 10)).mp hpower
  have hlast := leadingPower_le_exponent hmantissa tie
  omega

theorem negative_of_nearest {negative : Bool} {num den : ℕ} (hden : 0 < den)
    (h : nearest negative num den = some x) : x.negative = negative := by
  rcases Nat.eq_zero_or_pos num with rfl | hnum
  · cases h
    rfl
  · obtain ⟨m, e, -, -, -, heq⟩ := exists_nearest_eq negative hnum hden
    rw [heq] at h
    split at h
    · cases h
    · cases h
      rfl

/-- Rounding does not get a number of nineteen digits below the least of them. -/
theorem le_magnitude_of_ofNat {n : ℕ} (hn : 2 * 10 ^ 18 ≤ n) (h : ofNat n = some x) :
    (10 : ℚ) ^ 18 ≤ x.magnitude := by
  have hratio : (n : ℚ) / (1 : ℕ) = n := by rw [Nat.cast_one, div_one]
  have hcast : (2 : ℚ) * 10 ^ 18 ≤ n := by exact_mod_cast hn
  have hnear := abs_magnitude_sub_le Nat.one_pos (by rw [hratio]; linarith) h
  rw [hratio, abs_le] at hnear
  have hhalf : (n : ℚ) / 2 ^ 53 ≤ n / 2 := by
    gcongr
    norm_num
  linarith [hnear.1]

end Binary64

end CitationFilter
