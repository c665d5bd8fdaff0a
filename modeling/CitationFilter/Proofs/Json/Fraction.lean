import CitationFilter.Proofs.Json.Numeral

/-!
# Numerals of decimals

In both notations a decimal is written as a numeral with a fraction or an exponent, so it is not
read as an integer. The digits of the numeral, as far as they are read, are those of the decimal
with perhaps zeros behind them, and the exponent goes with them: it is that of the decimal, or it is
negative because a whole number has been written with a fraction.
-/

namespace CitationFilter

namespace Json.Number

/-- Behind a sign the characters are a numeral with this significand and this exponent, which is not
that of an integer. -/
def IsNumeral (cs : List Char) (significand : Nat) (e : Int) : Prop :=
  ∀ negative, ∃ whole fraction exponent,
    numeral? ((if negative then ['-'] else []) ++ cs)
      = some ⟨negative, whole, fraction, exponent⟩ ∧
    (fraction ≠ [] ∨ exponent ≠ none) ∧
    Nat.ofDigitChars 10 (whole ++ fraction) 0 = significand ∧
    exponent.getD 0 - fraction.length = e

/-! ## The value of a numeral -/

theorem ofNumeral?_eq (negative : Bool) {whole fraction : List Char} {exponent : Option Int}
    (hfloat : fraction ≠ [] ∨ exponent ≠ none)
    (hfits : Nat.ofDigitChars 10 (whole ++ fraction) 0 ≤ greatestSignificand) :
    ofNumeral? ⟨negative, whole, fraction, exponent⟩
      = (scaled (Nat.ofDigitChars 10 (whole ++ fraction) 0)
          (exponent.getD 0 - fraction.length)).map
          fun x ↦ .float (if negative then x.neg else x) := by
  rw [Nat.ofDigitChars_append] at hfits ⊢
  have hwhole : absorb 0 whole = (Nat.ofDigitChars 10 whole 0, []) :=
    absorb_eq (Nat.le_trans (le_ofDigitChars fraction _) hfits)
  have hfraction := absorb_eq hfits
  have hnot : ¬(fraction = [] ∧ exponent = none ∧ ([] : List Char) = []) := by
    rintro ⟨hfraction, hexponent, -⟩
    rcases hfloat with hne | hne
    · exact hne hfraction
    · exact hne hexponent
  have hplaces : ((([] : List Char).length : Int) - (fraction.length - ([] : List Char).length))
      + exponent.getD 0 = exponent.getD 0 - fraction.length := by
    rw [List.length_nil]
    omega
  rw [ofNumeral?]
  dsimp only
  rw [hwhole]
  dsimp only
  rw [if_neg hnot, hfraction]
  dsimp only
  rw [hplaces]

theorem IsNumeral.ofChars?_eq {cs : List Char} {significand : Nat} {e : Int}
    (h : IsNumeral cs significand e) (hfits : significand ≤ greatestSignificand)
    (negative : Bool) :
    ofChars? ((if negative then ['-'] else []) ++ cs)
      = (scaled significand e).map fun x ↦ .float (if negative then x.neg else x) := by
  obtain ⟨whole, fraction, exponent, hnumeral, hfloat, rfl, rfl⟩ := h negative
  rw [ofChars?, hnumeral, Option.bind_some, ofNumeral?_eq negative hfloat hfits]

/-! ## Fractions and exponents -/

section Parts

variable {whole fraction rest : List Char}

theorem exponent?_eq (e : Int) :
    exponent? ((if e < 0 then '-' else '+') :: Nat.toDigits 10 e.natAbs) = some e := by
  have hall : (Nat.toDigits 10 e.natAbs).all Char.isDigit :=
    List.all_eq_true.mpr fun _ ↦ isDigit_of_mem_toDigits
  have hgood : Nat.toDigits 10 e.natAbs ≠ [] ∧ (Nat.toDigits 10 e.natAbs).all Char.isDigit :=
    ⟨Nat.toDigits_ne_nil, hall⟩
  have hvalue : digitsValue (Nat.toDigits 10 e.natAbs) = e.natAbs := by
    rw [digitsValue_eq, Nat.ofDigitChars_toDigits (by decide) (by decide)]
  by_cases hnegative : e < 0
  · rw [if_pos hnegative, exponent?, if_pos hgood, if_pos rfl, hvalue]
    congr 1
    omega
  · rw [if_neg hnegative, exponent?, if_pos hgood, if_neg Bool.false_ne_true, hvalue]
    congr 1
    omega

theorem fractionAndExponent?_point (hfraction : ∀ c ∈ fraction, c.isDigit) (hne : fraction ≠ []) :
    fractionAndExponent? ('.' :: fraction) = some (fraction, none) := by
  have htake := takeWhile_isDigit hfraction noDigitFirst_nil
  have hdrop := dropWhile_isDigit hfraction noDigitFirst_nil
  rw [List.append_nil] at htake hdrop
  rw [fractionAndExponent?, htake, hdrop, if_neg fun h ↦ hne h.2]

theorem fractionAndExponent?_exponent (cs : List Char) :
    fractionAndExponent? ('e' :: cs) = (exponent? cs).map fun e ↦ ([], some e) := rfl

theorem fractionAndExponent?_point_exponent (hfraction : ∀ c ∈ fraction, c.isDigit)
    (hne : fraction ≠ []) (cs : List Char) :
    fractionAndExponent? ('.' :: (fraction ++ 'e' :: cs))
      = (exponent? cs).map fun e ↦ (fraction, some e) := by
  have hletter : NoDigitFirst ('e' :: cs) := noDigitFirst_cons (by decide) cs
  rw [fractionAndExponent?, takeWhile_isDigit hfraction hletter,
    dropWhile_isDigit hfraction hletter, if_neg fun h ↦ hne h.2]
  exact if_pos (Or.inl rfl)

theorem isNumeral_fraction (hwhole : Whole whole) (hfraction : ∀ c ∈ fraction, c.isDigit)
    (hne : fraction ≠ []) :
    IsNumeral (whole ++ '.' :: fraction) (Nat.ofDigitChars 10 (whole ++ fraction) 0)
      (-fraction.length) := by
  intro negative
  refine ⟨whole, fraction, none, ?_, Or.inl hne, rfl, ?_⟩
  · rw [numeral?_eq negative hwhole (noDigitFirst_cons (by decide) _),
      fractionAndExponent?_point hfraction hne]
    rfl
  · rw [Option.getD_none, Int.zero_sub]

/-- The characters of an exponent. -/
def exponentChars (e : Int) : List Char :=
  'e' :: (if e < 0 then '-' else '+') :: Nat.toDigits 10 e.natAbs

theorem whole_singleton {c : Char} (hc : c.isDigit) : Whole [c] :=
  ⟨List.forall_mem_singleton.mpr hc, List.cons_ne_nil _ _, fun h ↦ by cases h; rfl⟩

theorem isNumeral_digit_exponent {c : Char} (hc : c.isDigit) (e : Int) :
    IsNumeral (c :: exponentChars e) (Nat.ofDigitChars 10 [c] 0) e := by
  intro negative
  refine ⟨[c], [], some e, ?_, Or.inr nofun, rfl, ?_⟩
  · have hchars : c :: exponentChars e = [c] ++ exponentChars e := rfl
    rw [hchars, exponentChars,
      numeral?_eq negative (whole_singleton hc) (noDigitFirst_cons (by decide) _),
      fractionAndExponent?_exponent, exponent?_eq]
    rfl
  · rw [Option.getD_some, List.length_nil]
    omega

theorem isNumeral_fraction_exponent {c : Char} (hc : c.isDigit)
    (hfraction : ∀ c ∈ fraction, c.isDigit) (hne : fraction ≠ []) (e : Int) :
    IsNumeral (c :: '.' :: fraction ++ exponentChars e) (Nat.ofDigitChars 10 (c :: fraction) 0)
      (e - fraction.length) := by
  intro negative
  refine ⟨[c], fraction, some e, ?_, Or.inl hne, rfl, rfl⟩
  have hchars : c :: '.' :: fraction ++ exponentChars e
      = [c] ++ '.' :: (fraction ++ exponentChars e) := rfl
  rw [hchars, numeral?_eq negative (whole_singleton hc) (noDigitFirst_cons (by decide) _),
    exponentChars, fractionAndExponent?_point_exponent hfraction hne, exponent?_eq]
  rfl

end Parts

/-! ## Decimals -/

section Decimals

variable {d : Decimal}

theorem isDigit_of_mem_characters : ∀ c ∈ d.characters, c.isDigit :=
  fun _ ↦ isDigit_of_mem_toDigits

theorem isDigit_of_mem_zeros (n : Nat) : ∀ c ∈ List.replicate n '0', c.isDigit := by
  intro c hc
  rw [List.eq_of_mem_replicate hc]
  decide

theorem ofDigitChars_characters (d : Decimal) : Nat.ofDigitChars 10 d.characters 0 = d.digits :=
  Nat.ofDigitChars_toDigits (by decide) (by decide)

theorem digits_lt (d : Decimal) : d.digits < tenTo d.characters.length :=
  (Nat.length_toDigits_le_iff (by decide) Nat.length_toDigits_pos).mp (Nat.le_refl _)

/-- Digits and zeros before the point, where zero is written with one digit only. -/
theorem whole_characters_append (hd : 0 < d.digits ∨ d.exponent = 0) :
    Whole (d.characters ++ List.replicate d.exponent.toNat '0') := by
  rcases hd with hd | hd
  · have hne : d.characters ≠ [] := Nat.toDigits_ne_nil
    refine ⟨?_, List.append_ne_nil_of_left_ne_nil hne _, ?_⟩
    · exact List.forall_mem_append.mpr ⟨isDigit_of_mem_characters, isDigit_of_mem_zeros _⟩
    · rw [List.head?_append_of_ne_nil _ hne]
      exact fun hzero ↦ absurd hzero (head?_toDigits_ne_zero hd)
  · rw [hd, Int.toNat_zero, List.replicate_zero, List.append_nil]
    exact whole_toDigits d.digits

/-- The digits from some position on, when those before it are the first digits of the decimal. -/
theorem whole_take_characters (hd : 0 < d.digits) {n : Nat} (hn : 0 < n) :
    Whole (d.characters.take n) := by
  have hne : d.characters ≠ [] := Nat.toDigits_ne_nil
  obtain ⟨c, rest, hcs⟩ := List.exists_cons_of_ne_nil hne
  have hzero : d.characters.head? ≠ some '0' := head?_toDigits_ne_zero hd
  obtain ⟨n, rfl⟩ := Nat.exists_eq_add_of_lt hn
  refine ⟨fun c hc ↦ isDigit_of_mem_characters c (List.mem_of_mem_take hc), ?_, ?_⟩
  · rw [hcs, List.take_succ_cons]
    exact List.cons_ne_nil _ _
  · rw [hcs] at hzero ⊢
    exact fun h ↦ absurd h hzero

/-- Only zeros come before the first digit. -/
theorem isNumeral_zeros (n : Nat) (d : Decimal) :
    IsNumeral ('0' :: '.' :: List.replicate n '0' ++ d.characters) d.digits
      (-(n + d.characters.length : Nat)) := by
  have hfraction : ∀ c ∈ List.replicate n '0' ++ d.characters, c.isDigit :=
    List.forall_mem_append.mpr ⟨isDigit_of_mem_zeros n, isDigit_of_mem_characters⟩
  have hne : List.replicate n '0' ++ d.characters ≠ [] :=
    List.append_ne_nil_of_right_ne_nil _ Nat.toDigits_ne_nil
  have hnumeral := isNumeral_fraction (whole_singleton (by decide : '0'.isDigit)) hfraction hne
  have hvalue : Nat.ofDigitChars 10 (['0'] ++ (List.replicate n '0' ++ d.characters)) 0
      = d.digits := by
    have hzero : Nat.ofDigitChars 10 ['0'] 0 = 0 := rfl
    rw [Nat.ofDigitChars_append, hzero, Nat.ofDigitChars_append, Nat.ofDigitChars_replicate_zero,
      Nat.mul_zero, ofDigitChars_characters]
  rw [hvalue, List.length_append, List.length_replicate] at hnumeral
  exact hnumeral

theorem isNumeral_whole (hd : 0 < d.digits ∨ d.exponent = 0) :
    IsNumeral (d.characters ++ List.replicate d.exponent.toNat '0' ++ ['.', '0'])
      (10 * (tenTo d.exponent.toNat * d.digits)) (-1) := by
  have hfraction : ∀ c ∈ ['0'], c.isDigit := List.forall_mem_singleton.mpr (by decide)
  have hnumeral := isNumeral_fraction (whole_characters_append hd) hfraction (List.cons_ne_nil _ _)
  have hvalue : Nat.ofDigitChars 10
      (d.characters ++ List.replicate d.exponent.toNat '0' ++ ['0']) 0
      = 10 * (tenTo d.exponent.toNat * d.digits) := by
    rw [Nat.ofDigitChars_append, Nat.ofDigitChars_append, ofDigitChars_characters,
      Nat.ofDigitChars_replicate_zero]
    rfl
  rw [hvalue] at hnumeral
  exact hnumeral

/-- The point stands between two digits. -/
theorem isNumeral_between (hd : 0 < d.digits) {n : Nat} (hn : 0 < n)
    (hlt : n < d.characters.length) :
    IsNumeral (d.characters.take n ++ '.' :: d.characters.drop n) d.digits
      (-(d.characters.length - n : Nat)) := by
  have hne : d.characters.drop n ≠ [] := by
    rw [Ne, List.drop_eq_nil_iff]
    omega
  have hnumeral := isNumeral_fraction (whole_take_characters hd hn)
    (fun c hc ↦ isDigit_of_mem_characters c (List.mem_of_mem_drop hc)) hne
  rw [List.take_append_drop, ofDigitChars_characters, List.length_drop] at hnumeral
  exact hnumeral

/-- A decimal in positional notation has a fraction, so the exponent of its numeral is negative. -/
theorem isNumeral_positional (hd : 0 < d.digits ∨ d.exponent = 0) (hdigits : d.digits ≤ tenTo 17)
    (hmagnitude : d.magnitude ≤ greatestPositional) :
    ∃ significand e, IsNumeral (d.positional ['.', '0']) significand e ∧ e < 0 ∧
      significand ≤ greatestSignificand := by
  have hlimit : tenTo 17 ≤ greatestSignificand := by decide
  have hlength : 0 < d.characters.length := Nat.length_toDigits_pos
  rw [Decimal.positional]
  by_cases hbefore : (d.characters.length : Int) + d.exponent ≤ 0
  · rw [if_pos hbefore]
    exact ⟨_, _, isNumeral_zeros _ d, by omega, Nat.le_trans hdigits hlimit⟩
  rw [if_neg hbefore]
  by_cases hwhole : 0 ≤ d.exponent
  · rw [if_pos hwhole]
    refine ⟨_, _, isNumeral_whole hd, by decide, ?_⟩
    have hplaces : d.characters.length + d.exponent.toNat ≤ 16 := by
      rw [Decimal.magnitude, greatestPositional] at hmagnitude
      omega
    have hshort : tenTo d.exponent.toNat * d.digits ≤ tenTo 16 := by
      calc tenTo d.exponent.toNat * d.digits
          ≤ tenTo d.exponent.toNat * tenTo d.characters.length :=
            Nat.mul_le_mul_left _ (Nat.le_of_lt (digits_lt d))
        _ = tenTo (d.exponent.toNat + d.characters.length) := (Nat.pow_add ..).symm
        _ ≤ tenTo 16 := Nat.pow_le_pow_right (by decide) (by omega)
    have hnext : 10 * tenTo 16 ≤ greatestSignificand := by decide
    omega
  · rw [if_neg hwhole]
    refine ⟨_, _, isNumeral_between (hd.resolve_right (by omega)) (by omega) (by omega), by omega,
      Nat.le_trans hdigits hlimit⟩

/-- A decimal in scientific notation is a numeral with its own digits and exponent. -/
theorem isNumeral_scientific (d : Decimal) : IsNumeral d.scientific d.digits d.exponent := by
  have hdigits := isDigit_of_mem_characters (d := d)
  have hvalue := ofDigitChars_characters d
  have hmagnitude : d.magnitude = d.characters.length + d.exponent - 1 := rfl
  rw [Decimal.scientific]
  cases hcs : d.characters with
  | nil => exact absurd hcs Nat.toDigits_ne_nil
  | cons c rest =>
    rw [hcs] at hdigits hvalue hmagnitude
    obtain ⟨hc, hrest⟩ := List.forall_mem_cons.mp hdigits
    cases rest with
    | nil =>
      have hnumeral := isNumeral_digit_exponent hc d.magnitude
      have hexponent : d.magnitude = d.exponent := by
        rw [hmagnitude, List.length_singleton]
        omega
      rw [hvalue] at hnumeral
      rw [← hexponent]
      exact hnumeral
    | cons c' rest =>
      have hnumeral := isNumeral_fraction_exponent hc hrest (List.cons_ne_nil _ _) d.magnitude
      have hexponent : d.magnitude - (c' :: rest).length = d.exponent := by
        rw [hmagnitude, List.length_cons]
        omega
      rw [hvalue, hexponent] at hnumeral
      exact hnumeral

end Decimals

/-- The text of a binary number is read by scaling the digits of its shortest decimal by the power
of ten of the decimal, or by dividing some digits by a power of ten. -/
theorem exists_ofChars?_floatChars (x : Binary64)
    (hd : 0 < (x.shortest .toEven).digits ∨ (x.shortest .toEven).exponent = 0)
    (hdigits : (x.shortest .toEven).digits ≤ tenTo 17) :
    ∃ significand e,
      (e < 0 ∨ significand = (x.shortest .toEven).digits ∧ e = (x.shortest .toEven).exponent) ∧
      significand ≤ greatestSignificand ∧
      ofChars? (floatChars x)
        = (scaled significand e).map fun y ↦ .float (if x.negative then y.neg else y) := by
  have hlimit : tenTo 17 ≤ greatestSignificand := by decide
  by_cases hplain : leastPositional ≤ (x.shortest .toEven).magnitude ∧
      (x.shortest .toEven).magnitude ≤ greatestPositional
  · have hchars : floatChars x = (if x.negative then ['-'] else []) ++
        (x.shortest .toEven).positional ['.', '0'] := congrArg (_ ++ ·) (if_pos hplain)
    obtain ⟨significand, e, hnumeral, he, hfits⟩ := isNumeral_positional hd hdigits hplain.2
    rw [hchars]
    exact ⟨significand, e, Or.inl he, hfits, hnumeral.ofChars?_eq hfits x.negative⟩
  · have hchars : floatChars x = (if x.negative then ['-'] else []) ++
        (x.shortest .toEven).scientific := congrArg (_ ++ ·) (if_neg hplain)
    have hfits := Nat.le_trans hdigits hlimit
    rw [hchars]
    exact ⟨_, _, Or.inr ⟨rfl, rfl⟩, hfits,
      (isNumeral_scientific _).ofChars?_eq hfits x.negative⟩

end Json.Number

end CitationFilter
