import CitationFilter.Proofs.Json.Digits
import CitationFilter.Proofs.Json.Reread

/-!
# Numerals

A numeral is taken apart where its digits end. An integer that is written is read as itself, as long
as it is one of those that are kept as integers, and no other integers are read.
-/

namespace CitationFilter

namespace Json.Number

/-! ## Digits -/

/-- No digit comes first. -/
def NoDigitFirst (cs : List Char) : Prop := ∀ c ∈ cs.head?, c.isDigit = false

theorem noDigitFirst_nil : NoDigitFirst [] := fun _ hc ↦ absurd hc (Option.not_mem_none _)

theorem noDigitFirst_cons {c : Char} (hc : c.isDigit = false) (cs : List Char) :
    NoDigitFirst (c :: cs) := by
  rintro _ ⟨⟩
  exact hc

section Digits

variable {digits more : List Char}

theorem takeWhile_isDigit (hdigits : ∀ c ∈ digits, c.isDigit) (hmore : NoDigitFirst more) :
    (digits ++ more).takeWhile Char.isDigit = digits := by
  have hnone : more.takeWhile Char.isDigit = [] := by
    cases more with
    | nil => rfl
    | cons c rest => rw [List.takeWhile_cons_of_neg (by rw [hmore c rfl]; exact Bool.false_ne_true)]
  rw [List.takeWhile_append_of_pos hdigits, hnone, List.append_nil]

theorem dropWhile_isDigit (hdigits : ∀ c ∈ digits, c.isDigit) (hmore : NoDigitFirst more) :
    (digits ++ more).dropWhile Char.isDigit = more := by
  have hall : more.dropWhile Char.isDigit = more := by
    cases more with
    | nil => rfl
    | cons c rest => rw [List.dropWhile_cons_of_neg (by rw [hmore c rfl]; exact Bool.false_ne_true)]
  rw [List.dropWhile_append_of_pos hdigits, hall]

/-- The digits before the point of a numeral: not none, and no zero in front of others. -/
structure Whole (digits : List Char) : Prop where
  isDigit : ∀ c ∈ digits, c.isDigit
  ne_nil : digits ≠ []
  zero : digits.head? = some '0' → digits = ['0']

/-- Reads a numeral behind its sign. -/
def unsigned? (negative : Bool) (cs : List Char) : Option Numeral :=
  let whole := cs.takeWhile Char.isDigit
  if whole = [] ∨ (whole.head? = some '0' ∧ whole ≠ ['0']) then none
  else
    (fractionAndExponent? (cs.dropWhile Char.isDigit)).map fun (fraction, exponent) ↦
      ⟨negative, whole, fraction, exponent⟩

theorem numeral?_minus (cs : List Char) : numeral? ('-' :: cs) = unsigned? true cs := rfl

theorem numeral?_of_ne {c : Char} (hc : c ≠ '-') (cs : List Char) :
    numeral? (c :: cs) = unsigned? false (c :: cs) := by
  rw [numeral?]
  · rfl
  · rintro rest heq
    exact hc (List.cons.inj heq).1

theorem unsigned?_eq (negative : Bool) (hdigits : Whole digits) (hmore : NoDigitFirst more) :
    unsigned? negative (digits ++ more)
      = (fractionAndExponent? more).map fun (fraction, exponent) ↦
          ⟨negative, digits, fraction, exponent⟩ := by
  have hgood : ¬(digits = [] ∨ (digits.head? = some '0' ∧ digits ≠ ['0'])) := by
    rintro (hnil | ⟨hzero, hne⟩)
    · exact hdigits.ne_nil hnil
    · exact hne (hdigits.zero hzero)
  rw [unsigned?, takeWhile_isDigit hdigits.isDigit hmore, dropWhile_isDigit hdigits.isDigit hmore]
  exact if_neg hgood

/-- A numeral is its sign, the digits before the point and what follows them. -/
theorem numeral?_eq (negative : Bool) (hdigits : Whole digits) (hmore : NoDigitFirst more) :
    numeral? ((if negative then ['-'] else []) ++ (digits ++ more))
      = (fractionAndExponent? more).map fun (fraction, exponent) ↦
          ⟨negative, digits, fraction, exponent⟩ := by
  rw [← unsigned?_eq negative hdigits hmore]
  cases negative with
  | true => exact numeral?_minus _
  | false =>
    obtain ⟨c, rest, rfl⟩ := List.exists_cons_of_ne_nil hdigits.ne_nil
    have hsign : c ≠ '-' := by
      rintro rfl
      exact absurd (hdigits.isDigit '-' List.mem_cons_self) (by decide)
    exact numeral?_of_ne hsign _

/-- The digits of a number do not start with a zero unless that is all. -/
theorem head?_toDigits_ne_zero {n : Nat} (h : 0 < n) : (Nat.toDigits 10 n).head? ≠ some '0' := by
  induction n using Nat.strongRecOn with
  | ind n ih =>
    rw [Nat.toDigits_eq_if (by decide)]
    by_cases hlt : n < 10
    · rw [if_pos hlt, List.head?_cons, Ne, Option.some_inj, Nat.digitChar_eq_zero]
      omega
    · have hfirst := ih (n / 10) (by omega) (by omega)
      rw [if_neg hlt, List.head?_append_of_ne_nil _ Nat.toDigits_ne_nil]
      exact hfirst

theorem whole_toDigits (n : Nat) : Whole (Nat.toDigits 10 n) := by
  refine ⟨fun _ ↦ isDigit_of_mem_toDigits, Nat.toDigits_ne_nil, fun hzero ↦ ?_⟩
  rcases Nat.eq_zero_or_pos n with rfl | hpos
  · rfl
  · exact absurd hzero (head?_toDigits_ne_zero hpos)

/-! ## Significands -/

theorem digitsValue_eq (cs : List Char) : digitsValue cs = Nat.ofDigitChars 10 cs 0 := by
  rw [Nat.ofDigitChars_eq_foldl]
  rfl

theorem le_ofDigitChars (cs : List Char) (significand : Nat) :
    significand ≤ Nat.ofDigitChars 10 cs significand := by
  induction cs generalizing significand with
  | nil => exact Nat.le_of_eq Nat.ofDigitChars_nil.symm
  | cons c rest ih =>
    rw [Nat.ofDigitChars_cons]
    exact Nat.le_trans (by omega) (ih _)

/-- Digits that spell a number that is small enough are all taken. -/
theorem absorb_eq {significand : Nat}
    (h : Nat.ofDigitChars 10 digits significand ≤ greatestSignificand) :
    absorb significand digits = (Nat.ofDigitChars 10 digits significand, []) := by
  induction digits generalizing significand with
  | nil => rw [absorb, Nat.ofDigitChars_nil]
  | cons c rest ih =>
    rw [Nat.ofDigitChars_cons] at h ⊢
    have hnext : 10 * significand + digitValue c ≤ greatestSignificand :=
      Nat.le_trans (le_ofDigitChars rest _) h
    rw [absorb]
    exact (if_pos hnext).trans (ih h)

theorem absorb_fst_le {significand : Nat} (h : significand ≤ greatestSignificand)
    (cs : List Char) : (absorb significand cs).1 ≤ greatestSignificand := by
  induction cs generalizing significand with
  | nil => exact h
  | cons c rest ih =>
    rw [absorb]
    by_cases hnext : 10 * significand + digitValue c ≤ greatestSignificand
    · rw [if_pos hnext]
      exact ih hnext
    · rw [if_neg hnext]
      exact h

/-! ## Integers -/

/-- The integers that are kept as integers. -/
def Kept (i : Int) : Prop := -(twoTo 63 : Int) ≤ i ∧ i < twoTo 64

theorem kept_of_ofNumeral? {numeral : Numeral} {i : Int} (h : ofNumeral? numeral = some (.int i)) :
    Kept i := by
  have hwhole : (absorb 0 numeral.whole).1 < twoTo 64 :=
    Nat.lt_of_le_of_lt (absorb_fst_le (Nat.zero_le _) _) (Nat.sub_lt (by decide) (by decide))
  have hfloat : ∀ {x : Option Binary64} {f : Binary64 → Binary64},
      x.map (fun y ↦ Number.float (f y)) ≠ some (.int i) := by
    rintro (_ | x) f <;> nofun
  rw [ofNumeral?] at h
  dsimp only at h
  split at h
  · split at h
    · cases h
      exact ⟨Int.le_trans (by decide) (Int.natCast_nonneg _), Int.ofNat_lt.mpr hwhole⟩
    · split at h
      · rename_i hrange
        cases h
        exact ⟨Int.neg_le_neg (Int.ofNat_le.mpr hrange.2),
          Int.lt_of_le_of_lt (Int.neg_nonpos_of_nonneg (Int.natCast_nonneg _)) (by decide)⟩
      · exact absurd h hfloat
  · exact absurd h hfloat

theorem ofNumeral?_whole (negative : Bool) {n : Nat} (h : absorb 0 digits = (n, [])) :
    ofNumeral? ⟨negative, digits, [], none⟩ =
      if negative then
        if 1 ≤ n ∧ n ≤ twoTo 63 then some (.int (-n)) else (scaled n 0).map fun x ↦ .float x.neg
      else some (.int n) := by
  rw [ofNumeral?]
  dsimp only
  rw [h]
  cases negative with
  | true => exact if_pos ⟨rfl, rfl, rfl⟩
  | false => exact if_pos ⟨rfl, rfl, rfl⟩

theorem ofChars?_intChars {i : Int} (h : Kept i) : ofChars? (intChars i) = some (.int i) := by
  obtain ⟨hlow, hhigh⟩ := h
  have hdigits : Nat.ofDigitChars 10 (Nat.toDigits 10 i.natAbs) 0 = i.natAbs :=
    Nat.ofDigitChars_toDigits (by decide) (by decide)
  have hwhole : absorb 0 (Nat.toDigits 10 i.natAbs) = (i.natAbs, []) := by
    have hfits : i.natAbs ≤ greatestSignificand := by
      have hlimit : greatestSignificand = twoTo 64 - 1 := rfl
      have hhalf : twoTo 64 = twoTo 63 + twoTo 63 := rfl
      omega
    rw [absorb_eq (by rwa [hdigits]), hdigits]
  have hnumeral : ∀ negative, numeral? ((if negative then ['-'] else []) ++
      Nat.toDigits 10 i.natAbs) = some ⟨negative, Nat.toDigits 10 i.natAbs, [], none⟩ := by
    intro negative
    have heq := numeral?_eq negative (whole_toDigits i.natAbs) noDigitFirst_nil
    rw [List.append_nil] at heq
    exact heq
  by_cases hnegative : i < 0
  · have hchars : intChars i = (if true then ['-'] else []) ++ Nat.toDigits 10 i.natAbs := by
      rw [intChars, if_pos hnegative, if_pos rfl]
    have hrange : 1 ≤ i.natAbs ∧ i.natAbs ≤ twoTo 63 := by omega
    have hvalue : -(i.natAbs : Int) = i := by omega
    rw [ofChars?, hchars, hnumeral, Option.bind_some, ofNumeral?_whole true hwhole,
      if_pos rfl, if_pos hrange, hvalue]
  · have hchars : intChars i = (if false then ['-'] else []) ++ Nat.toDigits 10 i.natAbs := by
      rw [intChars, if_neg hnegative, if_neg Bool.false_ne_true]
    have hvalue : (i.natAbs : Int) = i := by omega
    rw [ofChars?, hchars, hnumeral, Option.bind_some, ofNumeral?_whole false hwhole,
      if_neg Bool.false_ne_true, hvalue]

end Digits

theorem IsRead.kept {i : Int} (h : IsRead (.int i)) : Kept i := by
  obtain ⟨cs, hcs⟩ := h
  obtain ⟨numeral, -, hnumeral⟩ := Option.bind_eq_some_iff.mp hcs
  exact kept_of_ofNumeral? hnumeral

theorem IsRead.ofChars?_int {i : Int} (h : IsRead (.int i)) :
    ofChars? (Number.int i).chars = some (.int i) :=
  ofChars?_intChars h.kept

/-- Different integers have different texts, those that are too great to be kept included. -/
theorem intChars_injective : Function.Injective intChars := by
  intro i j h
  have hvalue : ∀ n : ℕ, Nat.ofDigitChars 10 (Nat.toDigits 10 n) 0 = n := fun n ↦
    Nat.ofDigitChars_toDigits (by decide) (by decide)
  have hdigits : ∀ m n : ℕ, Nat.toDigits 10 m = Nat.toDigits 10 n → m = n := by
    intro m n heq
    rw [← hvalue m, heq, hvalue n]
  have hsign : ∀ (m n : ℕ), '-' :: Nat.toDigits 10 m ≠ Nat.toDigits 10 n := by
    intro m n heq
    have hminus : '-' ∈ Nat.toDigits 10 n := heq ▸ List.mem_cons_self
    exact absurd (isDigit_of_mem_toDigits hminus) (by decide)
  rw [intChars, intChars] at h
  by_cases hi : i < 0
  · by_cases hj : j < 0
    · rw [if_pos hi, if_pos hj] at h
      have heq := hdigits _ _ (List.append_cancel_left h)
      omega
    · rw [if_pos hi, if_neg hj] at h
      exact absurd h (hsign _ _)
  · by_cases hj : j < 0
    · rw [if_neg hi, if_pos hj] at h
      exact absurd h.symm (hsign _ _)
    · rw [if_neg hi, if_neg hj] at h
      have heq := hdigits _ _ (List.append_cancel_left h)
      omega

end Json.Number

end CitationFilter
