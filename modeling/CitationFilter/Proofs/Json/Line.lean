import CitationFilter.Json.Text
import CitationFilter.Proofs.Json.Digits

/-!
# The text of a value is one line

Messages are told apart by the ends of their lines, so a value must not bring an end of its own.
Strings are the only place where one could come in, and there every control character is spelled as
an escape. Numbers consist of digits and a few signs.
-/

namespace CitationFilter

namespace Json

/-- None of the characters is a control character; in particular there is no end of a line. -/
def Printable (cs : List Char) : Prop := ∀ c ∈ cs, 0x20 ≤ c.toNat

instance (cs : List Char) : Decidable (Printable cs) :=
  -- through the members of the list; the characters themselves are finite too, but too many
  List.decidableBAll (fun c : Char ↦ 0x20 ≤ c.toNat) cs

namespace Printable

variable {cs more : List Char}

theorem cons {c : Char} (hc : 0x20 ≤ c.toNat) (h : Printable cs) : Printable (c :: cs) :=
  List.forall_mem_cons.mpr ⟨hc, h⟩

theorem append (h : Printable cs) (hmore : Printable more) : Printable (cs ++ more) :=
  List.forall_mem_append.mpr ⟨h, hmore⟩

theorem flatMap {α : Type} {as : List α} {f : α → List Char} (h : ∀ a ∈ as, Printable (f a)) :
    Printable (as.flatMap f) := by
  intro c hc
  obtain ⟨a, ha, hc⟩ := List.mem_flatMap.mp hc
  exact h a ha c hc

/-- A printable text is one line. -/
theorem newline_not_mem (h : Printable cs) : '\n' ∉ cs :=
  fun hmem ↦ absurd (h '\n' hmem) (by decide)

end Printable

/-! ## Numbers -/

theorem Numeric.printable {cs : List Char} (h : Numeric cs) : Printable cs := by
  intro c hc
  have hnumeric := h c hc
  simp only [Lexer.isNumeric, Bool.or_eq_true, decide_eq_true_eq] at hnumeric
  rcases hnumeric with ((((hdigit | rfl) | rfl) | rfl) | rfl) | rfl
  · rw [Char.isDigit, Bool.and_eq_true, decide_eq_true_eq, decide_eq_true_eq] at hdigit
    have hzero : '0'.toNat ≤ c.toNat := hdigit.1
    exact Nat.le_trans (by decide) hzero
  -- a sign, a point or the letter before an exponent
  all_goals decide

theorem Number.printable_chars (n : Number) : Printable n.chars := n.numeric_chars.printable

/-! ## Strings -/

theorem Token.printable_stringChar (c : Char) : Printable (stringChar c) := by
  have hdigit : ∀ n < 16, 0x20 ≤ (hexDigit n).toNat := by decide
  rw [stringChar]
  split
  · rename_i hc
    rcases hc with rfl | rfl <;> decide
  -- the five control characters with a letter of their own
  split; · decide
  split; · decide
  split; · decide
  split; · decide
  split; · decide
  split
  · have hhigh : 0x20 ≤ (hexDigit (c.toNat / 16)).toNat := hdigit _ (by omega)
    have hlow : 0x20 ≤ (hexDigit (c.toNat % 16)).toNat := hdigit _ (by omega)
    exact .append (by decide : Printable ['\\', 'u', '0', '0'])
      (.cons hhigh (.cons hlow (by decide)))
  · rename_i hcontrol
    exact .cons (Nat.le_of_not_lt hcontrol) (by decide)

theorem Token.printable_chars (t : Token) : Printable t.chars := by
  cases t with
  | str s =>
    exact .append (.cons (by decide) (.flatMap fun c _ ↦ printable_stringChar c)) (by decide)
  | num n => exact n.printable_chars
  | bool b => cases b <;> decide
  | openArray => decide
  | closeArray => decide
  | openObject => decide
  | closeObject => decide
  | comma => decide
  | colon => decide
  | null => decide

/-! ## Values -/

/-- The text of a value is one line. -/
theorem newline_not_mem_text (v : Json) : '\n' ∉ v.text.toList := by
  rw [text, String.toList_ofList]
  exact Printable.newline_not_mem (.flatMap fun t _ ↦ t.printable_chars)

end Json

end CitationFilter
