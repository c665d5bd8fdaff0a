import CitationFilter.Json.Token

/-!
# The characters of a number

The text of a number is perhaps a minus and then a digit with more characters behind it that numbers
are made of, in each of the notations. So a reader that knows where the text begins knows where it
ends, as long as none of these characters follows.
-/

namespace CitationFilter

namespace Json

/-- All of the characters are such as numbers are made of. -/
def Numeric (cs : List Char) : Prop := ∀ c ∈ cs, Lexer.isNumeric c

instance (cs : List Char) : Decidable (Numeric cs) :=
  List.decidableBAll (fun c ↦ Lexer.isNumeric c = true) cs

theorem Numeric.append {cs more : List Char} (h : Numeric cs) (hmore : Numeric more) :
    Numeric (cs ++ more) :=
  List.forall_mem_append.mpr ⟨h, hmore⟩

theorem isNumeric_of_isDigit {c : Char} (h : c.isDigit) : Lexer.isNumeric c := by
  simp [Lexer.isNumeric, h]

theorem numeric_of_isDigit {cs : List Char} (h : ∀ c ∈ cs, c.isDigit) : Numeric cs :=
  fun c hc ↦ isNumeric_of_isDigit (h c hc)

/-- The characters of a number without a sign: a digit is the first of them. -/
structure Unsigned (cs : List Char) : Prop where
  head : ∃ c, cs.head? = some c ∧ c.isDigit
  numeric : Numeric cs

theorem isDigit_of_mem_toDigits {n : Nat} {c : Char} (h : c ∈ Nat.toDigits 10 n) : c.isDigit :=
  Nat.isDigit_of_mem_toDigits (by decide) (by decide) h

namespace Unsigned

variable {cs more : List Char}

theorem cons {c : Char} (hc : c.isDigit) (hmore : Numeric more) : Unsigned (c :: more) :=
  ⟨⟨c, rfl, hc⟩, List.forall_mem_cons.mpr ⟨isNumeric_of_isDigit hc, hmore⟩⟩

theorem append (h : Unsigned cs) (hmore : Numeric more) : Unsigned (cs ++ more) := by
  obtain ⟨c, hhead, hc⟩ := h.head
  refine ⟨⟨c, ?_, hc⟩, h.numeric.append hmore⟩
  rw [List.head?_append, hhead, Option.some_or]

/-- Digits, as long as there are any. -/
theorem of_isDigit (h : ∀ c ∈ cs, c.isDigit) (hne : cs ≠ []) : Unsigned cs := by
  refine ⟨⟨cs.head hne, List.head?_eq_some_head hne, h _ (List.head_mem hne)⟩, ?_⟩
  exact numeric_of_isDigit h

end Unsigned

theorem unsigned_toDigits (n : Nat) : Unsigned (Nat.toDigits 10 n) :=
  .of_isDigit (fun _ ↦ isDigit_of_mem_toDigits) (Nat.toDigits_ne_nil)

theorem unsigned_positional {wholeEnd : List Char} (h : Numeric wholeEnd) (d : Decimal) :
    Unsigned (d.positional wholeEnd) := by
  have hdigits : ∀ c ∈ d.characters, c.isDigit := fun _ ↦ isDigit_of_mem_toDigits
  have hzeros : ∀ n, Numeric (List.replicate n '0') := fun n c hc ↦ by
    rw [List.eq_of_mem_replicate hc]
    decide
  rw [Decimal.positional]
  split
  · refine .cons (by decide) (.append ?_ (numeric_of_isDigit hdigits))
    exact .append (by decide : Numeric ['.']) (hzeros _)
  · rename_i hbefore
    split
    · exact .append (.append (unsigned_toDigits _) (hzeros _)) h
    · have hdropped : ∀ c ∈ d.characters.drop (d.characters.length + d.exponent).toNat, c.isDigit :=
        fun c hc ↦ hdigits c (List.mem_of_mem_drop hc)
      refine .append (.of_isDigit (fun c hc ↦ hdigits c (List.mem_of_mem_take hc)) ?_)
        (.append (by decide : Numeric ['.']) (numeric_of_isDigit hdropped))
      -- there is a digit before the point
      have hne : d.characters ≠ [] := Nat.toDigits_ne_nil
      rw [Ne, List.take_eq_nil_iff]
      rintro (hzero | hnil)
      · omega
      · exact hne hnil

theorem unsigned_scientific (d : Decimal) : Unsigned d.scientific := by
  have hdigits : ∀ c ∈ d.characters, c.isDigit := fun _ ↦ isDigit_of_mem_toDigits
  have hpower : Numeric ('e' :: (if d.magnitude < 0 then '-' else '+') ::
      Nat.toDigits 10 d.magnitude.natAbs) := by
    refine List.forall_mem_cons.mpr ⟨by decide, List.forall_mem_cons.mpr ⟨?_, ?_⟩⟩
    · split <;> decide
    · exact (unsigned_toDigits _).numeric
  rw [Decimal.scientific]
  match hcs : d.characters with
  | [] => exact absurd hcs Nat.toDigits_ne_nil
  | [c] =>
    rw [hcs] at hdigits
    exact .cons (hdigits c List.mem_cons_self) hpower
  | c :: c' :: more =>
    rw [hcs] at hdigits
    obtain ⟨hc, hmore⟩ := List.forall_mem_cons.mp hdigits
    refine .append (.cons hc ?_) hpower
    exact .append (by decide : Numeric ['.']) (numeric_of_isDigit hmore)

/-- The text of a number is its sign and the characters of a number without a sign. -/
theorem Number.exists_chars_eq (n : Number) :
    ∃ (negative : Bool) (cs : List Char),
      n.chars = (if negative then ['-'] else []) ++ cs ∧ Unsigned cs := by
  cases n with
  | int i =>
    refine ⟨decide (i < 0), _, ?_, unsigned_toDigits i.natAbs⟩
    simp only [chars, intChars, decide_eq_true_eq]
  | float x =>
    refine ⟨x.negative, _, rfl, ?_⟩
    split
    · exact unsigned_positional (by decide) _
    · exact unsigned_scientific _

theorem Number.exists_chars_eq_cons (n : Number) :
    ∃ c cs, n.chars = c :: cs ∧ (c = '-' ∨ c.isDigit) ∧ Numeric cs := by
  obtain ⟨negative, cs, hchars, hcs⟩ := n.exists_chars_eq
  rw [hchars]
  cases negative with
  | true => exact ⟨'-', cs, rfl, Or.inl rfl, hcs.numeric⟩
  | false =>
    obtain ⟨c, hhead, hc⟩ := hcs.head
    obtain ⟨more, rfl⟩ := List.head?_eq_some_iff.mp hhead
    exact ⟨c, more, rfl, Or.inr hc, (List.forall_mem_cons.mp hcs.numeric).2⟩

theorem Number.numeric_chars (n : Number) : Numeric n.chars := by
  obtain ⟨c, cs, hchars, hc, hcs⟩ := n.exists_chars_eq_cons
  rw [hchars]
  refine List.forall_mem_cons.mpr ⟨?_, hcs⟩
  rcases hc with rfl | hc
  · decide
  · exact isNumeric_of_isDigit hc

end Json

end CitationFilter
