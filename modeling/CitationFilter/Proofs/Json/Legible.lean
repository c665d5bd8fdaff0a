import CitationFilter.Proofs.Decimal.Scaling
import CitationFilter.Proofs.Decimal.Shortest
import CitationFilter.Proofs.Json.Fraction

/-!
# Every number that was read can be read again

The text of a binary number need not be read as the number itself, since the reader rounds more than
once. But it is read as some number: the shortest decimal is so close that the roundings do not get
it beyond the greatest number of the format. Only for the two greatest numbers this is not a matter
of room, and their texts are looked at.
-/

namespace CitationFilter

open Binary64

namespace Json.Number

theorem limit_pos : 0 < limit := by
  have hpos : (0 : ℚ) < 2 ^ greatestExponent := zpow_pos two_pos _
  exact mul_pos (by norm_num) hpos

/-- Half a unit more than a number of the format leaves room for the roundings, but for the two
greatest numbers. -/
theorem room_above {x : Binary64} (hx : x.Bounded)
    (h : x.exponent < greatestExponent ∨ x.mantissa + 3 ≤ twoTo 53) :
    ((x.mantissa : ℚ) + 1 / 2) * 2 ^ x.exponent * (1 + 1 / 2 ^ 53) ^ 2 < limit := by
  have hpos : (0 : ℚ) < 2 ^ greatestExponent := zpow_pos two_pos _
  rw [limit]
  rcases h with hexponent | hmantissa
  · have hunit : (2 : ℚ) ^ x.exponent * 2 ≤ 2 ^ greatestExponent := by
      rw [← zpow_add_one₀ two_ne_zero]
      exact zpow_le_zpow_right₀ one_le_two (Int.add_one_le_of_lt hexponent)
    have hle : (x.mantissa : ℚ) + 1 ≤ 2 ^ 53 := by
      have hnat : x.mantissa + 1 ≤ 2 ^ 53 := hx.mantissa_lt
      exact_mod_cast hnat
    generalize (2 : ℚ) ^ greatestExponent = unit at hpos hunit ⊢
    calc ((x.mantissa : ℚ) + 1 / 2) * 2 ^ x.exponent * (1 + 1 / 2 ^ 53) ^ 2
        ≤ 2 ^ 53 * (unit / 2) * (1 + 1 / 2 ^ 53) ^ 2 := by
          gcongr <;> linarith
      _ = 2 ^ 53 / 2 * (1 + 1 / 2 ^ 53) ^ 2 * unit := by ring
      _ < (2 ^ 53 - 1 / 2) * unit := mul_lt_mul_of_pos_right (by norm_num) hpos
  · have hunit : (2 : ℚ) ^ x.exponent ≤ 2 ^ greatestExponent :=
      zpow_le_zpow_right₀ one_le_two hx.le_greatest
    have hle : (x.mantissa : ℚ) + 3 ≤ 2 ^ 53 := by
      have hnat : x.mantissa + 3 ≤ 2 ^ 53 := hmantissa
      exact_mod_cast hnat
    generalize (2 : ℚ) ^ greatestExponent = unit at hpos hunit ⊢
    calc ((x.mantissa : ℚ) + 1 / 2) * 2 ^ x.exponent * (1 + 1 / 2 ^ 53) ^ 2
        ≤ (2 ^ 53 - 5 / 2) * unit * (1 + 1 / 2 ^ 53) ^ 2 := by
          gcongr
          linarith
      _ = (2 ^ 53 - 5 / 2) * (1 + 1 / 2 ^ 53) ^ 2 * unit := by ring
      _ < (2 ^ 53 - 1 / 2) * unit := mul_lt_mul_of_pos_right (by norm_num) hpos

theorem legible_greatest (negative : Bool) {n : ℕ} (hn : n < 2) :
    Legible (.float ⟨negative, twoTo 53 - (n + 1), greatestExponent⟩) := by
  have hsome : ∀ negative : Bool, ∀ n < 2,
      (ofChars? (floatChars ⟨negative, twoTo 53 - (n + 1), greatestExponent⟩)).isSome := by
    decide +kernel
  obtain ⟨m, hm⟩ := Option.isSome_iff_exists.mp (hsome negative n hn)
  exact legible_of_eq_some hm

theorem legible_of_scaled {x : Binary64} {significand : ℕ} {e : ℤ}
    (heq : ofChars? (floatChars x)
      = (scaled significand e).map fun y ↦ .float (if x.negative then y.neg else y))
    (h : ∃ y, scaled significand e = some y) : Legible (.float x) := by
  obtain ⟨y, hy⟩ := h
  rw [hy, Option.map_some] at heq
  exact legible_of_eq_some heq

theorem legible_of_isZero {x : Binary64} (h : x.isZero) : Legible (.float x) := by
  have hshortest : x.shortest .toEven = ⟨0, 0⟩ := if_pos h
  obtain ⟨significand, e, hcases, hfits, heq⟩ := exists_ofChars?_floatChars x
    (Or.inr (by rw [hshortest])) (by rw [hshortest]; decide)
  refine legible_of_scaled heq ?_
  rcases hcases with he | ⟨rfl, rfl⟩
  · exact exists_scaled_of_neg hfits he
  · rw [hshortest]
    refine exists_scaled_of_lt (Nat.zero_le _) (le_refl 0) ?_
    rw [Nat.cast_zero, zero_mul, zero_mul]
    exact limit_pos

theorem legible_of_bounded {x : Binary64} (hx : x.Bounded) : Legible (.float x) := by
  by_cases hzero : x.isZero
  · exact legible_of_isZero hzero
  by_cases hroom : x.exponent < greatestExponent ∨ x.mantissa + 3 ≤ twoTo 53
  · have hpos : 0 < x.mantissa := Nat.pos_of_ne_zero fun h ↦ hzero (decide_eq_true h)
    have hwritten := written_shortest hpos .toEven
    obtain ⟨significand, e, hcases, hfits, heq⟩ := exists_ofChars?_floatChars x
      (Or.inl hwritten.digits_pos) hwritten.digits_le
    refine legible_of_scaled heq ?_
    -- a negative exponent never fails; otherwise the digits and the exponent are the decimal's own
    rcases lt_or_ge e 0 with he | he
    · exact exists_scaled_of_neg hfits he
    · obtain ⟨rfl, rfl⟩ := hcases.resolve_left (not_lt.mpr he)
      refine exists_scaled_of_lt hfits he ((room_above hx hroom).trans_le' ?_)
      have hle := hwritten.value_le
      rw [Decimal.value] at hle
      gcongr
  · -- one of the two greatest numbers
    obtain ⟨hexponent, hmantissa⟩ := not_or.mp hroom
    have hlt := hx.mantissa_lt
    obtain ⟨negative, mantissa, exponent⟩ := x
    obtain rfl : exponent = greatestExponent := le_antisymm hx.le_greatest (not_lt.mp hexponent)
    dsimp only at hmantissa hlt
    obtain ⟨n, hn, rfl⟩ : ∃ n < 2, mantissa = twoTo 53 - (n + 1) :=
      ⟨twoTo 53 - mantissa - 1, by omega, by omega⟩
    exact legible_greatest negative hn

theorem bounded_of_isRead {x : Binary64} (h : IsRead (.float x)) : x.Bounded := by
  obtain ⟨cs, hcs⟩ := h
  obtain ⟨numeral, -, hnumeral⟩ := Option.bind_eq_some_iff.mp hcs
  have hscaled : ∀ {n : ℕ} {e : ℤ} {f : Binary64 → Binary64}, (∀ y, y.Bounded → (f y).Bounded) →
      (scaled n e).map (fun y ↦ Number.float (f y)) = some (.float x) → x.Bounded := by
    intro n e f hf hmap
    obtain ⟨y, hy, heq⟩ := Option.map_eq_some_iff.mp hmap
    cases heq
    exact hf y (bounded_of_scaled hy)
  have hsigned : ∀ y : Binary64, y.Bounded → (if numeral.negative then y.neg else y).Bounded := by
    intro y hy
    split
    · exact hy.neg
    · exact hy
  rw [ofNumeral?] at hnumeral
  dsimp only at hnumeral
  split at hnumeral
  · split at hnumeral
    · cases hnumeral
    · split at hnumeral
      · cases hnumeral
      · exact hscaled hsigned hnumeral
  · exact hscaled hsigned hnumeral

/-- **Numbers are legible.** The text of a number that was read is read again, if perhaps as another
number. -/
theorem IsRead.legible {n : Number} (h : n.IsRead) : n.Legible := by
  cases n with
  | int i => exact legible_of_eq_some h.ofChars?_int
  | float x => exact legible_of_bounded (bounded_of_isRead h)

end Json.Number

namespace Json

/-- Only the binary numbers in a value that was read can come out as others when it is read from its
text. -/
theorem Fits.reread_eq_iff {n : ℕ} {v : Json} (h : Fits Number.IsRead n v) :
    v.reread = v ↔ ∀ x, .num (.float x) ∈ v.tokens →
      Number.ofChars? (Number.float x).chars = some (.float x) := by
  constructor
  · intro heq x hx
    have hlegible : (Number.float x).Legible := (h.wanted_of_mem_tokens hx).legible
    have hsame : (Number.float x).reread = .float x := (h.of_reread_eq heq).wanted_of_mem_tokens hx
    rwa [Number.Legible, hsame] at hlegible
  · intro hfloats
    have hsame : Fits (fun x ↦ x.reread = x) n v := by
      refine h.imp_of_mem_tokens fun x hx hmem ↦ ?_
      cases x with
      | int i => exact Number.reread_eq_of_eq_some hx.ofChars?_int
      | float x => exact Number.reread_eq_of_eq_some (hfloats x hmem)
    exact hsame.reread_eq

end Json

end CitationFilter
