import CitationFilter.Decimal.Shortest
import CitationFilter.Proofs.Decimal.Rounding

/-!
# The shortest decimal is close and short

The decimal that is written for a number has at most seventeen digits, or is a power of ten, and is
at most half a unit greater than the number. It need not be known for this that it is the shortest:
every decimal that the search tries lies next to the number on its grid, and none is taken that lies
beyond the interval of the number.
-/

namespace CitationFilter

/-- The number that a decimal stands for. -/
def Decimal.value (d : Decimal) : ℚ := d.digits * 10 ^ d.exponent

namespace Decimal

/-! ## Trailing zeros -/

theorem value_stripZeros (fuel : ℕ) (d : Decimal) : (stripZeros fuel d).value = d.value := by
  induction fuel generalizing d with
  | zero => rfl
  | succ fuel ih =>
    rw [stripZeros]
    by_cases hzero : d.digits ≠ 0 ∧ d.digits % 10 = 0
    · rw [if_pos hzero, ih]
      have hdigits : (d.digits : ℚ) = 10 * (d.digits / 10 : ℕ) := by
        exact_mod_cast (Nat.mul_div_cancel' (Nat.dvd_of_mod_eq_zero hzero.2)).symm
      rw [value, value, hdigits]
      dsimp only
      rw [zpow_add_one₀ (by norm_num)]
      ring
    · rw [if_neg hzero]

theorem digits_stripZeros_le (fuel : ℕ) (d : Decimal) : (stripZeros fuel d).digits ≤ d.digits := by
  induction fuel generalizing d with
  | zero => exact le_refl _
  | succ fuel ih =>
    rw [stripZeros]
    split
    · exact (ih _).trans (Nat.div_le_self _ _)
    · exact le_refl _

theorem digits_stripZeros_pos (fuel : ℕ) {d : Decimal} (h : 0 < d.digits) :
    0 < (stripZeros fuel d).digits := by
  induction fuel generalizing d with
  | zero => exact h
  | succ fuel ih =>
    rw [stripZeros]
    split
    · rename_i hzero
      refine ih ?_
      dsimp only
      omega
    · exact h

end Decimal

namespace Binary64

variable {x : Binary64} {d : Decimal}

/-! ## The interval -/

/-- The two ratios are compared as the numbers that they stand for. -/
theorem compared_eq (x : Binary64) (quarters : ℕ) (d : Decimal) :
    ∃ scale : ℚ, 0 < scale ∧
      ((x.compared quarters d).1 : ℚ) = quarters * 2 ^ (x.exponent - 2) * scale ∧
      ((x.compared quarters d).2 : ℚ) = d.value * scale := by
  refine ⟨10 ^ (-d.exponent).toNat * 2 ^ (-(x.exponent - 2)).toNat, by positivity, ?_, ?_⟩
  · rw [compared, ← pow_toNat_div 2 (x.exponent - 2)]
    push_cast [cast_twoTo, cast_tenTo]
    field_simp
  · rw [compared, Decimal.value, ← pow_toNat_div 10 d.exponent]
    push_cast [cast_twoTo, cast_tenTo]
    field_simp

theorem compared_of_roundsTo (h : x.roundsTo d) :
    (x.compared x.interval.2.1 d).1 ≤ (x.compared x.interval.2.1 d).2 ∧
      (x.compared x.interval.2.2 d).2 ≤ (x.compared x.interval.2.2 d).1 := by
  rw [roundsTo] at h
  dsimp only at h
  split at h
  · rw [Bool.and_eq_true, decide_eq_true_eq, decide_eq_true_eq] at h
    exact h
  · rw [Bool.and_eq_true, decide_eq_true_eq, decide_eq_true_eq] at h
    exact ⟨h.1.le, h.2.le⟩

theorem value_le_of_roundsTo (h : x.roundsTo d) :
    d.value ≤ (x.mantissa + 1 / 2) * 2 ^ x.exponent := by
  obtain ⟨scale, hscale, hnumber, hdecimal⟩ := compared_eq x x.interval.2.2 d
  have hle : ((x.compared x.interval.2.2 d).2 : ℚ) ≤ (x.compared x.interval.2.2 d).1 :=
    Nat.cast_le.mpr (compared_of_roundsTo h).2
  rw [hnumber, hdecimal, mul_le_mul_iff_left₀ hscale] at hle
  refine hle.trans (le_of_eq ?_)
  rw [interval, zpow_sub₀ two_ne_zero]
  push_cast
  ring

/-- Zero rounds to no other number. -/
theorem digits_pos_of_roundsTo (hx : 0 < x.mantissa) (h : x.roundsTo d) : 0 < d.digits := by
  have hlow : 0 < x.interval.2.1 := by
    have hbelow : (if x.mantissa = twoTo 52 ∧ leastExponent < x.exponent then 1 else 2) ≤ 2 := by
      split <;> decide
    rw [interval]
    dsimp only
    omega
  have hnumber : 0 < (x.compared x.interval.2.1 d).1 :=
    Nat.mul_pos (Nat.mul_pos hlow (twoTo_pos _)) (tenTo_pos _)
  have hdecimal : 0 < (x.compared x.interval.2.1 d).2 :=
    lt_of_lt_of_le hnumber (compared_of_roundsTo h).1
  rw [compared] at hdecimal
  exact Nat.pos_of_mul_pos_right (Nat.pos_of_mul_pos_right hdecimal)

/-! ## The neighbours on a grid -/

theorem natDiv_bounds {a b : ℕ} (hb : 0 < b) :
    ((a / b : ℕ) : ℚ) ≤ a / b ∧ (a : ℚ) / b < (a / b : ℕ) + 1 := by
  refine ⟨Nat.cast_div_le, ?_⟩
  rw [div_lt_iff₀ (Nat.cast_pos.mpr hb)]
  exact_mod_cast (Nat.div_lt_iff_lt_mul hb).mp (Nat.lt_succ_self (a / b))

theorem floorAt_bounds (x : Binary64) (e : ℤ) :
    ((x.floorAt e).digits : ℚ) ≤ x.magnitude / 10 ^ e ∧
      x.magnitude / 10 ^ e < (x.floorAt e).digits + 1 := by
  have hscaled : ((x.ratio.1 * tenTo (-e).toNat : ℕ) : ℚ) / (x.ratio.2 * tenTo e.toNat : ℕ)
      = x.magnitude / 10 ^ e := by
    have hpower := pow_toNat_div 10 (-e)
    rw [neg_neg, zpow_neg] at hpower
    rw [← ratio_div, div_eq_mul_inv _ ((10 : ℚ) ^ e), ← hpower]
    push_cast [cast_tenTo]
    rw [mul_div_mul_comm]
  rw [← hscaled]
  exact natDiv_bounds (Nat.mul_pos x.ratio_snd_pos (tenTo_pos _))

/-! ## The first digit -/

theorem length_toDigits_bounds {n : ℕ} (h : 0 < n) :
    ∃ k, (Nat.toDigits 10 n).length = k + 1 ∧ 10 ^ k ≤ n ∧ n < 10 ^ (k + 1) := by
  obtain ⟨k, hk⟩ := Nat.exists_eq_add_of_lt (Nat.length_toDigits_pos (b := 10) (n := n))
  rw [Nat.zero_add] at hk
  refine ⟨k, hk, ?_, ?_⟩
  · rcases Nat.eq_zero_or_pos k with rfl | hpos
    · exact h
    · refine not_lt.mp fun hlt ↦ ?_
      have hle := (Nat.length_toDigits_le_iff (by decide) hpos).mpr hlt
      omega
  · exact (Nat.length_toDigits_le_iff (by decide) (Nat.succ_pos k)).mp (Nat.le_of_eq hk)

/-- The first digit has this power of ten. -/
def IsLeading (q : ℚ) (e : ℤ) : Prop := 10 ^ e ≤ q ∧ q < 10 ^ (e + 1)

section Leading

variable {num den : ℕ}

/-- The digits of the quotient tell where the first digit of a ratio of at least one is. -/
theorem isLeading_of_le (hden : 0 < den) (hle : den ≤ num) :
    IsLeading (num / den) (leadingPower num den) := by
  obtain ⟨k, hlength, hlow, hhigh⟩ := length_toDigits_bounds (Nat.div_pos hle hden)
  obtain ⟨hfloor, hceil⟩ := @natDiv_bounds num den hden
  have hfirst : ((k + 1 : ℕ) : ℤ) - 1 = k := by omega
  rw [leadingPower, if_pos hle, hlength, hfirst]
  constructor
  · calc (10 : ℚ) ^ (k : ℤ) ≤ (num / den : ℕ) := by exact_mod_cast hlow
      _ ≤ num / den := hfloor
  · calc (num : ℚ) / den < (num / den : ℕ) + 1 := hceil
      _ ≤ 10 ^ ((k : ℤ) + 1) := by exact_mod_cast hhigh

/-- For a ratio below one the quotient the other way round tells how far behind the point the first
digit is, but for one place. -/
theorem isLeading_of_lt (hnum : 0 < num) (hlt : num < den) :
    IsLeading (num / den) (leadingPower num den) := by
  obtain ⟨k, hlength, hlow, hhigh⟩ := length_toDigits_bounds (Nat.div_pos hlt.le hnum)
  have hpos : (0 : ℚ) < den := Nat.cast_pos.mpr (hnum.trans hlt)
  have hbelow : 10 ^ k * num ≤ den := (Nat.le_div_iff_mul_le hnum).mp hlow
  have habove : den < 10 ^ (k + 1) * num := (Nat.div_lt_iff_lt_mul hnum).mp hhigh
  rw [leadingPower, if_neg (not_le.mpr hlt), hlength]
  dsimp only
  rw [Nat.add_sub_cancel]
  by_cases hfirst : den ≤ num * tenTo k
  · rw [if_pos hfirst]
    refine ⟨(le_div_iff₀ hpos).mpr ?_, (div_lt_iff₀ hpos).mpr ?_⟩
    · rw [zpow_neg, zpow_natCast, inv_mul_le_iff₀ (by positivity), mul_comm, ← cast_tenTo]
      exact_mod_cast hfirst
    · have hpower : (10 : ℚ) ^ (-(k : ℤ) + 1) = (10 ^ k)⁻¹ * 10 := by
        rw [zpow_add_one₀ (by norm_num), zpow_neg, zpow_natCast]
      rw [hpower, mul_assoc, lt_inv_mul_iff₀ (by positivity)]
      exact_mod_cast lt_of_le_of_lt hbelow (by omega)
  · rw [if_neg hfirst]
    refine ⟨(le_div_iff₀ hpos).mpr ?_, (div_lt_iff₀ hpos).mpr ?_⟩
    · rw [zpow_neg, zpow_natCast, inv_mul_le_iff₀ (by positivity)]
      exact_mod_cast habove.le
    · have hpower : -((k + 1 : ℕ) : ℤ) + 1 = -(k : ℤ) := by omega
      rw [hpower, zpow_neg, zpow_natCast, lt_inv_mul_iff₀ (by positivity), mul_comm, ← cast_tenTo]
      exact_mod_cast not_le.mp hfirst

theorem isLeading_leadingPower (hnum : 0 < num) (hden : 0 < den) :
    IsLeading (num / den) (leadingPower num den) := by
  rcases le_or_gt den num with hle | hlt
  · exact isLeading_of_le hden hle
  · exact isLeading_of_lt hnum hlt

end Leading

/-! ## The search -/

/-- What is needed of the decimal that is written for a number. -/
structure Written (x : Binary64) (d : Decimal) : Prop where
  digits_pos : 0 < d.digits
  digits_le : d.digits ≤ tenTo 17
  value_le : d.value ≤ (x.mantissa + 1 / 2) * 2 ^ x.exponent

theorem Written.stripZeros (h : Written x d) (fuel : ℕ) : Written x (d.stripZeros fuel) where
  digits_pos := Decimal.digits_stripZeros_pos fuel h.digits_pos
  digits_le := (Decimal.digits_stripZeros_le fuel d).trans h.digits_le
  value_le := (Decimal.value_stripZeros fuel d).le.trans h.value_le

/-- On a grid only the neighbours of the number are tried. -/
theorem cases_of_shortestAt {tie : Tie} {e : ℤ} (h : shortestAt tie x e = some d) :
    x.roundsTo d ∧ d.digits ≤ (x.floorAt e).digits + 1 := by
  rw [shortestAt] at h
  split at h
  · rename_i hlow hhigh
    cases h
    split
    · exact ⟨hhigh, le_refl _⟩
    · exact ⟨hlow, Nat.le_succ _⟩
  · rename_i hlow _
    cases h
    exact ⟨hlow, Nat.le_succ _⟩
  · rename_i _ hhigh
    cases h
    exact ⟨hhigh, le_refl _⟩
  · cases h

theorem digits_floorAt_bounds (hx : 0 < x.mantissa) (n : ℕ) :
    10 ^ n ≤ (x.floorAt (leadingPower x.ratio.1 x.ratio.2 - n)).digits ∧
      (x.floorAt (leadingPower x.ratio.1 x.ratio.2 - n)).digits < 10 ^ (n + 1) := by
  have hpos : 0 < x.ratio.1 := Nat.mul_pos hx (twoTo_pos _)
  obtain ⟨hlow, hhigh⟩ := isLeading_leadingPower hpos x.ratio_snd_pos
  obtain ⟨hfloor, hceil⟩ := x.floorAt_bounds (leadingPower x.ratio.1 x.ratio.2 - n)
  rw [ratio_div] at hlow hhigh
  set first : ℤ := leadingPower x.ratio.1 x.ratio.2
  set digits : ℕ := (x.floorAt (first - n)).digits
  have hunit : (0 : ℚ) < 10 ^ (first - n) := zpow_pos (by norm_num) _
  have hten : (10 : ℚ) ≠ 0 := by norm_num
  constructor
  · have hpower : (10 : ℚ) ^ n * 10 ^ (first - n) = 10 ^ first := by
      rw [← zpow_natCast, ← zpow_add₀ hten, add_sub_cancel]
    have hle : (10 : ℚ) ^ n ≤ x.magnitude / 10 ^ (first - n) := by
      rw [le_div_iff₀ hunit, hpower]
      exact hlow
    have hlt : 10 ^ n < digits + 1 := by exact_mod_cast hle.trans_lt hceil
    exact Nat.lt_succ_iff.mp hlt
  · have hpower : (10 : ℚ) ^ (n + 1) * 10 ^ (first - n) = 10 ^ (first + 1) := by
      rw [← zpow_natCast, ← zpow_add₀ hten]
      congr 1
      push_cast
      ring
    have hlt : x.magnitude / 10 ^ (first - n) < (10 : ℚ) ^ (n + 1) := by
      rw [div_lt_iff₀ hunit, hpower]
      exact hhigh
    exact_mod_cast hfloor.trans_lt hlt

theorem value_floorAt_le (x : Binary64) (e : ℤ) : (x.floorAt e).value ≤ x.magnitude :=
  (le_div_iff₀ (zpow_pos (by norm_num) e)).mp (x.floorAt_bounds e).1

theorem written_shortest (hx : 0 < x.mantissa) (tie : Tie) : Written x (x.shortest tie) := by
  have hzero : x.isZero = false := decide_eq_false hx.ne'
  rw [shortest, hzero]
  dsimp only
  rw [if_neg Bool.false_ne_true]
  split
  · rename_i d hfound
    refine Written.stripZeros ?_ 400
    obtain ⟨n, hn, hat⟩ := List.exists_of_findSome?_eq_some hfound
    obtain ⟨hrounds, hdigits⟩ := cases_of_shortestAt hat
    have hlt := (digits_floorAt_bounds hx n).2
    have hle : 10 ^ (n + 1) ≤ tenTo 17 := Nat.pow_le_pow_right (by decide) (List.mem_range.mp hn)
    exact ⟨digits_pos_of_roundsTo hx hrounds, by omega, value_le_of_roundsTo hrounds⟩
  · obtain ⟨hlow, hhigh⟩ := digits_floorAt_bounds hx 16
    refine ⟨lt_of_lt_of_le (by decide) hlow, hhigh.le, (x.value_floorAt_le _).trans ?_⟩
    rw [magnitude]
    gcongr
    linarith

end Binary64

end CitationFilter
