import CitationFilter.Proofs.Json.Digits
import CitationFilter.Proofs.Json.Reread

/-!
# Tokens come back from their spelling

A written text has nothing between its tokens. That is enough for the automaton to tell them apart,
because two tokens that have no visible end, such as words and numbers, never meet: there is always
a bracket, a comma or a colon between them. So the automaton may still be inside of a token when all
of it has been read. `Lexer.Holds` says that it holds some tokens in this sense, and `Spells` that
this is so after some characters. What has been read can be followed by a punctuation mark and more
characters (`Spells.punctuation`), and the texts of values are put together in this way.
-/

namespace CitationFilter

namespace Json

/-! ## Steps -/

section Steps

variable {α σ : Type} {f : σ → α → Option σ} {s s' : σ}

theorem foldlM_cons_of_eq {a : α} {rest : List α} (h : f s a = some s') :
    (a :: rest).foldlM f s = rest.foldlM f s' := by
  rw [List.foldlM_cons, h]
  rfl

theorem foldlM_append_of_eq {before after : List α} (h : before.foldlM f s = some s') :
    (before ++ after).foldlM f s = after.foldlM f s' := by
  rw [List.foldlM_append, h]
  rfl

end Steps

namespace Lexer

/-! ## Where a token has ended -/

/-- The automaton has read the tokens, the last one first; that one may have no end yet. -/
inductive Holds : Lexer → List Token → Prop
  | between (ts : List Token) : Holds ⟨ts, .between⟩ ts
  | word {ts : List Token} {seen : List Char} {t : Token} : wordToken? seen.reverse = some t →
      Holds ⟨ts, .word seen⟩ (t :: ts)
  | number {ts : List Token} {seen : List Char} {n : Number} :
      Number.ofChars? seen.reverse = some n → Holds ⟨ts, .number seen⟩ (.num n :: ts)

/-- A character that cannot belong to the last token ends it. -/
theorem Holds.step_eq {l : Lexer} {ts : List Token} (h : Holds l ts) {c : Char}
    (halpha : c.isAlpha = false) (hnumeric : isNumeric c = false) : l.step c = begin ts c := by
  cases h with
  | between => rfl
  | word hword =>
    rw [step]
    dsimp only
    rw [halpha, hword]
    rfl
  | number hnumber =>
    rw [step]
    dsimp only
    rw [hnumeric, hnumber]
    rfl

theorem Holds.finish_eq {l : Lexer} {ts : List Token} (h : Holds l ts) :
    l.finish = some ts.reverse := by
  cases h with
  | between => rfl
  | word hword =>
    rw [finish]
    dsimp only
    rw [hword]
    rfl
  | number hnumber =>
    rw [finish]
    dsimp only
    rw [hnumber]
    rfl

/-! ## Punctuation -/

/-- The character is a punctuation mark: it is a token of its own, also right behind another one. -/
structure Marks (c : Char) (t : Token) : Prop where
  alpha : c.isAlpha = false
  numeric : isNumeric c = false
  begin_eq : ∀ ts, begin ts c = some ⟨t :: ts, .between⟩

theorem marks_openArray : Marks '[' .openArray := ⟨rfl, rfl, fun _ ↦ rfl⟩

theorem marks_closeArray : Marks ']' .closeArray := ⟨rfl, rfl, fun _ ↦ rfl⟩

theorem marks_openObject : Marks '{' .openObject := ⟨rfl, rfl, fun _ ↦ rfl⟩

theorem marks_closeObject : Marks '}' .closeObject := ⟨rfl, rfl, fun _ ↦ rfl⟩

theorem marks_comma : Marks ',' .comma := ⟨rfl, rfl, fun _ ↦ rfl⟩

theorem marks_colon : Marks ':' .colon := ⟨rfl, rfl, fun _ ↦ rfl⟩

end Lexer

/-! ## Spelling -/

/-- From between two tokens, the automaton reads the characters as the tokens. -/
def Spells (cs : List Char) (tokens : List Token) : Prop :=
  ∀ ts, ∃ l, cs.foldlM Lexer.step ⟨ts, .between⟩ = some l ∧ l.Holds (tokens.reverse ++ ts)

theorem Spells.nil : Spells [] [] := fun ts ↦ ⟨_, rfl, .between ts⟩

/-- A punctuation mark ends what stands before it, and what follows starts afresh. -/
theorem Spells.punctuation {cs more : List Char} {tokens others : List Token} {c : Char}
    {t : Token} (h : Spells cs tokens) (hc : Lexer.Marks c t) (hmore : Spells more others) :
    Spells (cs ++ c :: more) (tokens ++ t :: others) := by
  intro ts
  obtain ⟨l, hl, hholds⟩ := h ts
  obtain ⟨l', hl', hholds'⟩ := hmore (t :: (tokens.reverse ++ ts))
  have hmark : l.step c = some ⟨t :: (tokens.reverse ++ ts), .between⟩ := by
    rw [hholds.step_eq hc.alpha hc.numeric, hc.begin_eq]
  refine ⟨l', ?_, ?_⟩
  · rw [foldlM_append_of_eq hl, foldlM_cons_of_eq hmark, hl']
  · rw [List.reverse_append, List.reverse_cons, List.append_assoc, List.append_assoc]
    exact hholds'

theorem Spells.tokens?_eq {cs : List Char} {tokens : List Token} (h : Spells cs tokens) :
    tokens? cs = some tokens := by
  obtain ⟨l, hl, hholds⟩ := h []
  rw [tokens?, Lexer.start, hl, Option.bind_some, hholds.finish_eq, List.append_nil,
    List.reverse_reverse]

/-! ## Words and numbers -/

theorem spells_null : Spells Token.null.chars [.null] := fun _ ↦ ⟨_, rfl, .word rfl⟩

theorem spells_bool (b : Bool) : Spells (Token.bool b).chars [.bool b] := by
  cases b with
  | false => exact fun _ ↦ ⟨_, rfl, .word rfl⟩
  | true => exact fun _ ↦ ⟨_, rfl, .word rfl⟩

theorem Lexer.foldlM_numeric (ts : List Token) {cs : List Char} (h : Numeric cs)
    (seen : List Char) :
    cs.foldlM step ⟨ts, .number seen⟩ = some ⟨ts, .number (cs.reverse ++ seen)⟩ := by
  induction cs generalizing seen with
  | nil => rfl
  | cons c rest ih =>
    obtain ⟨hc, hrest⟩ := List.forall_mem_cons.mp h
    have hstep : step ⟨ts, .number seen⟩ c = some ⟨ts, .number (c :: seen)⟩ := by
      rw [step]
      exact if_pos hc
    rw [foldlM_cons_of_eq hstep, ih hrest, List.reverse_cons, List.append_assoc,
      List.singleton_append]

theorem Lexer.begin_number (ts : List Token) {c : Char} (hc : c = '-' ∨ c.isDigit) :
    begin ts c = some ⟨ts, .number [c]⟩ := by
  rcases hc with rfl | hc
  · rfl
  · have hne : ∀ c', c'.isDigit = false → c ≠ c' := by
      rintro _ hc' rfl
      rw [hc] at hc'
      cases hc'
    have hspace : isSpace c = false := by
      simp [isSpace, hne ' ' rfl, hne '\t' rfl, hne '\n' rfl, hne '\r' rfl]
    simp [begin, hspace, hne '[' rfl, hne ']' rfl, hne '{' rfl, hne '}' rfl, hne ',' rfl,
      hne ':' rfl, hne '"' rfl, hc]

theorem spells_num {n : Number} (h : n.Legible) : Spells n.chars [.num n.reread] := by
  intro ts
  obtain ⟨c, cs, hchars, hc, hcs⟩ := n.exists_chars_eq_cons
  rw [Number.Legible, hchars] at h
  refine ⟨⟨ts, .number (cs.reverse ++ [c])⟩, ?_, .number ?_⟩
  · have hbegin : Lexer.step ⟨ts, .between⟩ c = some ⟨ts, .number [c]⟩ :=
      Lexer.begin_number ts hc
    rw [hchars, foldlM_cons_of_eq hbegin, Lexer.foldlM_numeric ts hcs]
  · rw [List.reverse_append, List.reverse_reverse, List.reverse_singleton, List.singleton_append, h]

/-! ## Strings -/

theorem Lexer.hexValue?_hexDigit : ∀ d < 16, hexValue? (Token.hexDigit d) = some d := by decide

/-- The escape of a control character is read as the character. -/
theorem Lexer.foldlM_control (ts : List Token) (seen : List Char) {c : Char} (h : c.toNat < 0x20) :
    ['\\', 'u', '0', '0', Token.hexDigit (c.toNat / 16), Token.hexDigit (c.toNat % 16)].foldlM step
      ⟨ts, .string seen⟩ = some ⟨ts, .string (c :: seen)⟩ := by
  have hzero : hexValue? '0' = some 0 := by decide
  have hhigh := hexValue?_hexDigit (c.toNat / 16) (by omega)
  have hlow := hexValue?_hexDigit (c.toNat % 16) (by omega)
  have hcode : 16 * (c.toNat / 16) + c.toNat % 16 = c.toNat := Nat.div_add_mod _ _
  have hunit : unitRead seen none c.toNat = some (.string (c :: seen)) := by
    have hleading : isLeading c.toNat = false := by simp [isLeading]; omega
    have htrailing : isTrailing c.toNat = false := by simp [isTrailing]; omega
    simp [unitRead, hleading, htrailing]
  simp [List.foldlM_cons, step, hzero, hhigh, hlow, hcode, hunit]

/-- Whatever a character is, it comes back from the way it is spelled inside a string. -/
theorem Lexer.foldlM_stringChar (ts : List Token) (seen : List Char) (c : Char) :
    (Token.stringChar c).foldlM step ⟨ts, .string seen⟩ = some ⟨ts, .string (c :: seen)⟩ := by
  rw [Token.stringChar]
  split
  · rename_i hc
    rcases hc with rfl | rfl <;> rfl
  rename_i hspecial
  -- the five control characters with a letter of their own
  split; · subst c; rfl
  split; · subst c; rfl
  split; · subst c; rfl
  split; · subst c; rfl
  split; · subst c; rfl
  split
  · rename_i hcontrol
    exact foldlM_control ts seen hcontrol
  · rename_i hcontrol
    rw [not_or] at hspecial
    have hstep : step ⟨ts, .string seen⟩ c = some ⟨ts, .string (c :: seen)⟩ := by
      simp [step, hspecial.1, hspecial.2, hcontrol]
    rw [foldlM_cons_of_eq hstep]
    rfl

theorem Lexer.foldlM_string (ts : List Token) (cs seen : List Char) :
    (cs.flatMap Token.stringChar).foldlM step ⟨ts, .string seen⟩
      = some ⟨ts, .string (cs.reverse ++ seen)⟩ := by
  induction cs generalizing seen with
  | nil => rfl
  | cons c rest ih =>
    rw [List.flatMap_cons, foldlM_append_of_eq (foldlM_stringChar ts seen c), ih,
      List.reverse_cons, List.append_assoc, List.singleton_append]

theorem spells_str (s : String) : Spells (Token.str s).chars [.str s] := by
  intro ts
  refine ⟨⟨.str s :: ts, .between⟩, ?_, .between _⟩
  have hopen : Lexer.step ⟨ts, .between⟩ '"' = some ⟨ts, .string []⟩ := rfl
  have hclose : Lexer.step ⟨ts, .string s.toList.reverse⟩ '"' = some ⟨.str s :: ts, .between⟩ := by
    have hstep : Lexer.step ⟨ts, .string s.toList.reverse⟩ '"'
        = some ⟨.str (String.ofList s.toList.reverse.reverse) :: ts, .between⟩ := rfl
    rw [hstep, List.reverse_reverse, String.ofList_toList]
  rw [Token.chars, List.cons_append, foldlM_cons_of_eq hopen,
    foldlM_append_of_eq (Lexer.foldlM_string ts s.toList []), List.append_nil,
    foldlM_cons_of_eq hclose]
  rfl

/-! ## Values -/

/-- The characters of some tokens. -/
def spelling (tokens : List Token) : List Char := tokens.flatMap Token.chars

theorem spelling_singleton (t : Token) : spelling [t] = t.chars := List.append_nil _

theorem spelling_append_cons (before after : List Token) (t : Token) :
    spelling (before ++ t :: after) = spelling before ++ (t.chars ++ spelling after) := by
  rw [spelling, List.flatMap_append, List.flatMap_cons]
  rfl

/-- `Spells.punctuation` for tokens that are spelled in the only way. -/
theorem Spells.mark {before after read others : List Token} {c : Char} {t : Token}
    (h : Spells (spelling before) read) (hc : Lexer.Marks c t) (hchars : t.chars = [c])
    (hafter : Spells (spelling after) others) :
    Spells (spelling (before ++ t :: after)) (read ++ t :: others) := by
  rw [spelling_append_cons, hchars]
  exact h.punctuation hc hafter

theorem spells_itemTokens {items : List Json}
    (h : ∀ item ∈ items, Spells (spelling item.tokens) item.reread.tokens) :
    Spells (spelling (itemTokens items)) (itemTokens (rereadItems items)) := by
  induction items with
  | nil => exact .nil
  | cons item rest ih =>
    obtain ⟨hitem, hrest⟩ := List.forall_mem_cons.mp h
    cases rest with
    | nil => exact hitem
    | cons next rest => exact hitem.mark Lexer.marks_comma rfl (ih hrest)

theorem spells_fieldTokens {fields : List (String × Json)}
    (h : ∀ field ∈ fields, Spells (spelling field.2.tokens) field.2.reread.tokens) :
    Spells (spelling (fieldTokens fields)) (fieldTokens (rereadFields fields)) := by
  induction fields with
  | nil => exact .nil
  | cons field rest ih =>
    obtain ⟨key, value⟩ := field
    obtain ⟨hvalue, hrest⟩ := List.forall_mem_cons.mp h
    have hkey : Spells (spelling [.str key]) [.str key] := by
      rw [spelling_singleton]
      exact spells_str key
    have hfield := hkey.mark Lexer.marks_colon rfl hvalue
    cases rest with
    | nil => exact hfield
    | cons next rest => exact hfield.mark Lexer.marks_comma rfl (ih hrest)

/-- The text of a value is read as the tokens of what it is to be read as. -/
theorem Fits.spells {n : Nat} {v : Json} (h : Fits Number.Legible n v) :
    Spells (spelling v.tokens) v.reread.tokens := by
  have hempty : Spells (spelling []) [] := .nil
  induction h with
  | null => exact spells_null
  | bool =>
    rw [tokens, spelling_singleton]
    exact spells_bool _
  | num hx =>
    rw [tokens, spelling_singleton]
    exact spells_num hx
  | str =>
    rw [tokens, spelling_singleton]
    exact spells_str _
  | arr _ ih =>
    have hopened := hempty.mark Lexer.marks_openArray rfl (spells_itemTokens ih)
    exact hopened.mark Lexer.marks_closeArray rfl .nil
  | obj _ _ ih =>
    have hopened := hempty.mark Lexer.marks_openObject rfl (spells_fieldTokens ih)
    exact hopened.mark Lexer.marks_closeObject rfl .nil

theorem Fits.tokens?_text {n : Nat} {v : Json} (h : Fits Number.Legible n v) :
    tokens? v.text.toList = some v.reread.tokens := by
  rw [text, String.toList_ofList]
  exact h.spells.tokens?_eq

end Json

end CitationFilter
