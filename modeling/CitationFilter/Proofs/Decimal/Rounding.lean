import CitationFilter.Decimal.Binary64
import Mathlib.Tactic

/-!
# What rounding does to a number

The rounded result is at most half a unit away from the exact one, where the unit is that of the
exponent of the exact result. Two consequences are needed to see that a result does not get too
large. There is a result whenever the exact one is below `Binary64.limit`, which is half a unit
above the greatest number of the format; and a result of at least one changes by no more than its
`2 ^ 53`th part when it is rounded.
-/

namespace CitationFilter

theorem cast_twoTo (e : ℕ) : ((twoTo e : ℕ) : ℚ) = 2 ^ e := Nat.cast_pow 2 e

theorem cast_tenTo (e : ℕ) : ((tenTo e : ℕ) : ℚ) = 10 ^ e := Nat.cast_pow 10 e

theorem twoTo_pos (e : ℕ) : 0 < twoTo e := Nat.two_pow_pos e

theorem tenTo_pos (e : ℕ) : 0 < tenTo e := Nat.pow_pos (by decide)

/-- A power with an integer exponent as the ratio of two powers with natural exponents. -/
theorem pow_toNat_div (b : ℚ) (e : ℤ) : b ^ e.toNat / b ^ (-e).toNat = b ^ e := by
  obtain ⟨n, rfl | rfl⟩ := e.eq_nat_or_neg
  · simp
  · simp

namespace Binary64

/-- The number without its sign. -/
def magnitude (x : Binary64) : ℚ := x.mantissa * 2 ^ x.exponent

theorem magnitude_nonneg (x : Binary64) : 0 ≤ x.magnitude :=
  mul_nonneg (Nat.cast_nonneg _) (zpow_pos two_pos _).le

theorem ratio_snd_pos (x : Binary64) : 0 < x.ratio.2 := twoTo_pos _

theorem ratio_div (x : Binary64) : (x.ratio.1 : ℚ) / x.ratio.2 = x.magnitude := by
  have hpower := pow_toNat_div 2 x.exponent
  rw [ratio, magnitude, ← hpower]
  push_cast [cast_twoTo]
  rw [mul_div_assoc]

/-! ## Units -/

theorem inUnits_div (num den : ℕ) (e : ℤ) :
    ((inUnits num den e).1 : ℚ) / (inUnits num den e).2 = num / den / 2 ^ e := by
  have hpower := pow_toNat_div 2 (-e)
  rw [neg_neg, zpow_neg] at hpower
  rw [inUnits, div_eq_mul_inv _ ((2 : ℚ) ^ e), ← hpower]
  push_cast [cast_twoTo]
  rw [mul_div_mul_comm]

theorem inUnits_snd_pos {den : ℕ} (hden : 0 < den) (num : ℕ) (e : ℤ) :
    0 < (inUnits num den e).2 := Nat.mul_pos hden (twoTo_pos _)

/-- The rounded quotient is one of the two neighbours, and the nearer one. -/
theorem divideToEven_cases (num den : ℕ) :
    (divideToEven num den = num / den ∧ 2 * (num % den) ≤ den) ∨
      (divideToEven num den = num / den + 1 ∧ den ≤ 2 * (num % den)) := by
  rw [divideToEven]
  by_cases hlow : 2 * (num % den) < den
  · rw [if_pos hlow]
    exact Or.inl ⟨rfl, hlow.le⟩
  by_cases hhigh : den < 2 * (num % den)
  · rw [if_neg hlow, if_pos hhigh]
    exact Or.inr ⟨rfl, hhigh.le⟩
  · rw [if_neg hlow, if_neg hhigh]
    rcases Nat.mod_two_eq_zero_or_one (num / den) with heven | hodd
    · exact Or.inl ⟨by rw [heven, Nat.add_zero], not_lt.mp hhigh⟩
    · exact Or.inr ⟨by rw [hodd], not_lt.mp hlow⟩

/-- A quotient is rounded by at most one half. -/
theorem abs_divideToEven_sub_le (num : ℕ) {den : ℕ} (hden : 0 < den) :
    |(divideToEven num den : ℚ) - num / den| ≤ 1 / 2 := by
  have hpos : (0 : ℚ) < den := Nat.cast_pos.mpr hden
  have hsum : (den : ℚ) * (num / den : ℕ) + (num % den : ℕ) = num := by
    exact_mod_cast Nat.div_add_mod num den
  have hquotient : (num : ℚ) / den = (num / den : ℕ) + ((num % den : ℕ) : ℚ) / den := by
    rw [div_eq_iff hpos.ne', add_mul, div_mul_cancel₀ _ hpos.ne', ← hsum]
    ring
  have hlt : (num % den : ℕ) < (den : ℚ) := Nat.cast_lt.mpr (Nat.mod_lt num hden)
  rw [hquotient, abs_le]
  rcases divideToEven_cases num den with ⟨heq, hle⟩ | ⟨heq, hle⟩
  · have hhalf : ((num % den : ℕ) : ℚ) / den ≤ 1 / 2 := by
      rw [div_le_iff₀ hpos]
      have hcast : (2 : ℚ) * (num % den : ℕ) ≤ den := by exact_mod_cast hle
      linarith
    have hnonneg : (0 : ℚ) ≤ ((num % den : ℕ) : ℚ) / den := by positivity
    rw [heq]
    constructor <;> linarith
  · have hhalf : 1 / 2 ≤ ((num % den : ℕ) : ℚ) / den := by
      rw [le_div_iff₀ hpos]
      have hcast : (den : ℚ) ≤ 2 * (num % den : ℕ) := by exact_mod_cast hle
      linarith
    have hone : ((num % den : ℕ) : ℚ) / den < 1 := by rwa [div_lt_one hpos]
    rw [heq, Nat.cast_add, Nat.cast_one]
    constructor <;> linarith

/-! ## The exponent of a ratio -/

section Exponent

variable {num den : ℕ}

theorem two_pow_log2_le {n : ℕ} (h : 0 < n) : (2 : ℚ) ^ (n.log2 : ℤ) ≤ n := by
  rw [zpow_natCast]
  exact_mod_cast Nat.log2_self_le h.ne'

theorem lt_two_pow_log2 (n : ℕ) : (n : ℚ) < 2 ^ ((n.log2 : ℤ) + 1) := by
  have hlt : n < 2 ^ (n.log2 + 1) := Nat.lt_log2_self
  exact_mod_cast hlt

theorem ratio_mem_Ioo (hnum : 0 < num) (hden : 0 < den) :
    (2 : ℚ) ^ ((num.log2 : ℤ) - den.log2 - 1) < num / den ∧
      (num : ℚ) / den < 2 ^ ((num.log2 : ℤ) - den.log2 + 1) := by
  have hpos : (0 : ℚ) < den := Nat.cast_pos.mpr hden
  have htwo : (2 : ℚ) ≠ 0 := two_ne_zero
  constructor
  · rw [lt_div_iff₀ hpos]
    calc (2 : ℚ) ^ ((num.log2 : ℤ) - den.log2 - 1) * den
        < 2 ^ ((num.log2 : ℤ) - den.log2 - 1) * 2 ^ ((den.log2 : ℤ) + 1) := by
          gcongr
          exact lt_two_pow_log2 den
      _ = 2 ^ (num.log2 : ℤ) := by
          rw [← zpow_add₀ htwo]
          congr 1
          ring
      _ ≤ num := two_pow_log2_le hnum
  · rw [div_lt_iff₀ hpos]
    calc (num : ℚ) < 2 ^ ((num.log2 : ℤ) + 1) := lt_two_pow_log2 num
      _ = 2 ^ ((num.log2 : ℤ) - den.log2 + 1) * 2 ^ (den.log2 : ℤ) := by
          rw [← zpow_add₀ htwo]
          congr 1
          ring
      _ ≤ 2 ^ ((num.log2 : ℤ) - den.log2 + 1) * den := by
          gcongr
          exact two_pow_log2_le hden

/-- In units of its exponent a ratio has at most 53 bits, and no fewer unless the exponent is the
least one. -/
structure IsExponent (q : ℚ) (e : ℤ) : Prop where
  least_le : leastExponent ≤ e
  lt : q / 2 ^ e < 2 ^ 53
  le : e = leastExponent ∨ 2 ^ 52 ≤ q / 2 ^ e

theorem inUnits_div_lt_iff (num : ℕ) (hden : 0 < den) (e : ℤ) (k : ℕ) :
    (inUnits num den e).1 / (inUnits num den e).2 < k ↔ (num : ℚ) / den / 2 ^ e < k := by
  have hpos : (0 : ℚ) < ((inUnits num den e).2 : ℚ) := Nat.cast_pos.mpr (inUnits_snd_pos hden num e)
  rw [← inUnits_div, div_lt_iff₀ hpos, Nat.div_lt_iff_lt_mul (inUnits_snd_pos hden num e)]
  exact_mod_cast Iff.rfl

/-- One unit more halves what is counted in units. -/
theorem div_two_zpow_add_one (q : ℚ) (e : ℤ) : q / 2 ^ (e + 1) = q / 2 ^ e / 2 := by
  rw [zpow_add_one₀ two_ne_zero, div_div]

/-- In the first unit that is tried, or a greater one, a ratio has at most 54 bits. -/
theorem div_two_zpow_lt (hnum : 0 < num) (hden : 0 < den) {e : ℤ}
    (he : (num.log2 : ℤ) - den.log2 - 53 ≤ e) : (num : ℚ) / den / 2 ^ e < 2 ^ 54 := by
  rw [div_lt_iff₀ (zpow_pos two_pos e)]
  calc (num : ℚ) / den < 2 ^ ((num.log2 : ℤ) - den.log2 + 1) := (ratio_mem_Ioo hnum hden).2
    _ = 2 ^ 54 * 2 ^ ((num.log2 : ℤ) - den.log2 - 53) := by
        rw [← zpow_natCast, ← zpow_add₀ two_ne_zero]
        congr 1
        push_cast
        ring
    _ ≤ 2 ^ 54 * 2 ^ e := by
        gcongr
        exact one_le_two

/-- In the first unit that is tried, a ratio has at least 53 bits. -/
theorem le_div_two_zpow (hnum : 0 < num) (hden : 0 < den) :
    2 ^ 52 ≤ (num : ℚ) / den / 2 ^ ((num.log2 : ℤ) - den.log2 - 53) := by
  rw [le_div_iff₀ (zpow_pos two_pos _)]
  calc (2 : ℚ) ^ 52 * 2 ^ ((num.log2 : ℤ) - den.log2 - 53)
      = 2 ^ ((num.log2 : ℤ) - den.log2 - 1) := by
        rw [← zpow_natCast, ← zpow_add₀ two_ne_zero]
        congr 1
        push_cast
        ring
    _ ≤ num / den := (ratio_mem_Ioo hnum hden).1.le

theorem isExponent_exponentOf (hnum : 0 < num) (hden : 0 < den) :
    IsExponent (num / den) (exponentOf num den) := by
  rw [exponentOf]
  dsimp only
  set first : ℤ := (num.log2 : ℤ) - den.log2 - 53
  set low : ℤ := max leastExponent first
  have hbelow : (num : ℚ) / den / 2 ^ low < 2 ^ 54 :=
    div_two_zpow_lt hnum hden (le_max_right leastExponent first)
  have habove : low = leastExponent ∨ 2 ^ 52 ≤ (num : ℚ) / den / 2 ^ low := by
    rcases max_choice leastExponent first with hleast | hfirst
    · exact Or.inl hleast
    · have hlow : low = first := hfirst
      rw [hlow]
      exact Or.inr (le_div_two_zpow hnum hden)
  have hcompare := inUnits_div_lt_iff num hden low (twoTo 53)
  rw [cast_twoTo] at hcompare
  -- a ratio with 54 bits gets the next exponent
  split
  · rename_i hfew
    exact ⟨le_max_left _ _, hcompare.mp hfew, habove⟩
  · rename_i hmany
    have hhalf : 2 ^ 53 ≤ (num : ℚ) / den / 2 ^ low :=
      not_lt.mp fun hlt ↦ hmany (hcompare.mpr hlt)
    refine ⟨Int.le_add_one (le_max_left _ _), ?_, Or.inr ?_⟩
    · rw [div_two_zpow_add_one]
      linarith
    · rw [div_two_zpow_add_one]
      linarith

end Exponent

/-! ## The nearest number -/

/-- The numbers of the format. -/
structure Bounded (x : Binary64) : Prop where
  mantissa_lt : x.mantissa < twoTo 53
  least_le : leastExponent ≤ x.exponent
  le_greatest : x.exponent ≤ greatestExponent

theorem Bounded.neg {x : Binary64} (h : x.Bounded) : x.neg.Bounded :=
  ⟨h.mantissa_lt, h.least_le, h.le_greatest⟩

/-- What lies below is rounded to a number of the format. -/
def limit : ℚ := (2 ^ 53 - 1 / 2) * 2 ^ greatestExponent

theorem Bounded.magnitude_lt {x : Binary64} (h : x.Bounded) : x.magnitude < limit := by
  have hmantissa : (x.mantissa : ℚ) ≤ 2 ^ 53 - 1 := by
    have hle : x.mantissa + 1 ≤ 2 ^ 53 := h.mantissa_lt
    have hcast : (x.mantissa : ℚ) + 1 ≤ 2 ^ 53 := by exact_mod_cast hle
    linarith
  have hexponent : (2 : ℚ) ^ x.exponent ≤ 2 ^ greatestExponent :=
    zpow_le_zpow_right₀ one_le_two h.le_greatest
  have hunit : (0 : ℚ) < 2 ^ greatestExponent := zpow_pos two_pos _
  calc x.magnitude ≤ (2 ^ 53 - 1) * 2 ^ greatestExponent :=
        mul_le_mul hmantissa hexponent (zpow_pos two_pos _).le (by norm_num)
    _ < limit := mul_lt_mul_of_pos_right (by norm_num) hunit

section Nearest

variable {num den : ℕ}

/-- The rounded mantissa and exponent: half a unit away at most, where a mantissa that got too large
has been carried over. -/
theorem exists_nearest_eq (negative : Bool) (hnum : 0 < num) (hden : 0 < den) :
    ∃ (m : ℕ) (e : ℤ), m < twoTo 53 ∧
      (e = exponentOf num den ∨ m = twoTo 52 ∧ e = exponentOf num den + 1) ∧
      |(m : ℚ) * 2 ^ e - num / den| ≤ 2 ^ exponentOf num den / 2 ∧
      nearest negative num den = if greatestExponent < e then none else some ⟨negative, m, e⟩ := by
  have hexponent := isExponent_exponentOf hnum hden
  have hunits := inUnits_div num den (exponentOf num den)
  have hround := abs_divideToEven_sub_le (inUnits num den (exponentOf num den)).1
    (inUnits_snd_pos hden num (exponentOf num den))
  rw [hunits] at hround
  rw [nearest, if_neg hnum.ne']
  dsimp only
  set q : ℚ := num / den
  set e : ℤ := exponentOf num den
  set m : ℕ := divideToEven (inUnits num den e).1 (inUnits num den e).2
  have hunit : (0 : ℚ) < 2 ^ e := by positivity
  have hnear : |(m : ℚ) * 2 ^ e - q| ≤ 2 ^ e / 2 := by
    have hscale : (m : ℚ) * 2 ^ e - q = (m - q / 2 ^ e) * 2 ^ e := by
      rw [sub_mul, div_mul_cancel₀ _ hunit.ne']
    rw [hscale, abs_mul, abs_of_pos hunit]
    calc |(m : ℚ) - q / 2 ^ e| * 2 ^ e ≤ 1 / 2 * 2 ^ e := by gcongr
      _ = 2 ^ e / 2 := by ring
  -- rounding up may give one bit more, but then all bits behind the first one are zero
  have hle : m ≤ twoTo 53 := by
    have hlt : (m : ℚ) < 2 ^ 53 + 1 := by
      have hupper := (abs_le.mp hround).2
      linarith [hexponent.lt]
    have hcast : m < 2 ^ 53 + 1 := by exact_mod_cast hlt
    exact Nat.lt_succ_iff.mp hcast
  by_cases hcarry : m = twoTo 53
  · rw [if_pos hcarry]
    refine ⟨twoTo 52, e + 1, by decide, Or.inr ⟨rfl, rfl⟩, ?_, rfl⟩
    have hsame : ((twoTo 52 : ℕ) : ℚ) * 2 ^ (e + 1) = m * 2 ^ e := by
      rw [hcarry, cast_twoTo, cast_twoTo, zpow_add_one₀ two_ne_zero]
      ring
    rwa [hsame]
  · rw [if_neg hcarry]
    exact ⟨m, e, lt_of_le_of_ne hle hcarry, Or.inl rfl, hnear, rfl⟩

theorem bounded_of_nearest {negative : Bool} {x : Binary64} (hden : 0 < den)
    (h : nearest negative num den = some x) : x.Bounded := by
  rcases Nat.eq_zero_or_pos num with rfl | hnum
  · cases h
    exact ⟨twoTo_pos 53, le_refl _, (by decide : leastExponent ≤ greatestExponent)⟩
  · obtain ⟨m, e, hm, he, -, heq⟩ := exists_nearest_eq negative hnum hden
    have hleast := (isExponent_exponentOf hnum hden).least_le
    rw [heq] at h
    split at h
    · cases h
    · rename_i hgreatest
      cases h
      refine ⟨hm, ?_, not_lt.mp hgreatest⟩
      rcases he with rfl | ⟨-, rfl⟩
      · exact hleast
      · exact Int.le_add_one hleast

theorem exists_nearest_of_lt (negative : Bool) (hden : 0 < den) (h : (num : ℚ) / den < limit) :
    ∃ x, nearest negative num den = some x := by
  rcases Nat.eq_zero_or_pos num with rfl | hnum
  · exact ⟨zero negative, rfl⟩
  · obtain ⟨m, e, -, he, hnear, heq⟩ := exists_nearest_eq negative hnum hden
    have hunit : ∀ {a b : ℤ}, a ≤ b → (2 : ℚ) ^ a ≤ 2 ^ b := zpow_le_zpow_right₀ one_le_two
    rw [heq]
    by_cases hgreatest : greatestExponent < e
    · exfalso
      refine absurd h (not_lt.mpr ?_)
      rcases he with rfl | ⟨hm, rfl⟩
      · -- the ratio has 53 bits in units that are too large
        have hbits : 2 ^ 52 * 2 ^ exponentOf num den ≤ (num : ℚ) / den := by
          rcases (isExponent_exponentOf hnum hden).le with hleast | hle
          · rw [hleast] at hgreatest
            exact absurd hgreatest (by decide)
          · exact (le_div_iff₀ (zpow_pos two_pos _)).mp hle
        have hnext := hunit (Int.add_one_le_of_lt hgreatest)
        rw [zpow_add_one₀ two_ne_zero] at hnext
        have hpos : (0 : ℚ) < 2 ^ greatestExponent := zpow_pos two_pos _
        rw [limit]
        linarith
      · -- the mantissa has been carried over, so the ratio is at most half a unit below
        have hlast := hunit (Int.lt_add_one_iff.mp hgreatest)
        have hbelow := (abs_le.mp hnear).2
        rw [hm, cast_twoTo, zpow_add_one₀ two_ne_zero] at hbelow
        rw [limit]
        linarith
    · exact ⟨_, if_neg hgreatest⟩

/-- A ratio of at least one hardly changes. -/
theorem abs_magnitude_sub_le {negative : Bool} {x : Binary64} (hden : 0 < den)
    (hone : 1 ≤ (num : ℚ) / den) (h : nearest negative num den = some x) :
    |x.magnitude - num / den| ≤ num / den / 2 ^ 53 := by
  have hnum : 0 < num := by
    rcases Nat.eq_zero_or_pos num with rfl | hnum
    · norm_num at hone
    · exact hnum
  obtain ⟨m, e, -, -, hnear, heq⟩ := exists_nearest_eq negative hnum hden
  have hx : x.magnitude = m * 2 ^ e := by
    rw [heq] at h
    split at h
    · cases h
    · cases h
      rfl
  have hunit : 2 ^ 52 * 2 ^ exponentOf num den ≤ (num : ℚ) / den := by
    rcases (isExponent_exponentOf hnum hden).le with hleast | hle
    · have hsmall : (2 : ℚ) ^ 52 * 2 ^ leastExponent ≤ 1 := by
        rw [← zpow_natCast, ← zpow_add₀ two_ne_zero]
        exact zpow_le_one_of_nonpos₀ one_le_two (by decide)
      rw [hleast]
      exact hsmall.trans hone
    · exact (le_div_iff₀ (zpow_pos two_pos _)).mp hle
  rw [hx]
  linarith

end Nearest

/-! ## Rounded arithmetic -/

section Arithmetic

variable {x y : Binary64}

theorem mul_eq (x y : Binary64) :
    ∃ num den : ℕ, 0 < den ∧ (num : ℚ) / den = x.magnitude * y.magnitude ∧
      x.mul y = nearest (x.negative != y.negative) num den := by
  refine ⟨_, _, Nat.mul_pos x.ratio_snd_pos y.ratio_snd_pos, ?_, rfl⟩
  rw [Nat.cast_mul, Nat.cast_mul, mul_div_mul_comm, ratio_div, ratio_div]

theorem ratio_fst_pos (h : 0 < x.magnitude) : 0 < x.ratio.1 := by
  refine Nat.pos_of_ne_zero fun hzero ↦ ?_
  rw [← ratio_div, hzero, Nat.cast_zero, zero_div] at h
  exact lt_irrefl 0 h

theorem div_eq (x : Binary64) (hy : 0 < y.magnitude) :
    ∃ num den : ℕ, 0 < den ∧ (num : ℚ) / den = x.magnitude / y.magnitude ∧
      x.div y = nearest (x.negative != y.negative) num den := by
  refine ⟨_, _, Nat.mul_pos x.ratio_snd_pos (ratio_fst_pos hy), ?_, rfl⟩
  rw [Nat.cast_mul, Nat.cast_mul, ← ratio_div, ← ratio_div, div_div_div_eq]

end Arithmetic

end Binary64

end CitationFilter
