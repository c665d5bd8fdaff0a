import CitationFilter.Proofs.Citation.Tokens
import CitationFilter.Proofs.Text.Pattern

/-!
# Searching for the markup

The tokens of the markup can be written down twice: as the pattern that is searched for, and as the
table of what each match becomes. A match is then looked up in the table, and if it were not there
it would be kept. Both have the same nine tokens, so the lookup never fails, and a search through a
text replaces the pieces into which the text is cut.

So `Markup.normalize` can be described without saying how a text is gone through: every token that
stands in the trimmed fragment is replaced by what the table has for it, and every character that
does not belong to one is kept.
-/

namespace CitationFilter

namespace Markup

/-! ## Pattern and table -/

/-- The pattern of the tokens. -/
def pattern : Pattern :=
  .alt (.seq (.char '<') (.seq (.optional (.char '/')) (.text "i>")))
    (.alt (.text "<div class=\"csl-entry\">")
      (.alt (.text "</div>")
        (.seq (.char '&')
          (.seq
            (.alt (.text "ndash")
              (.alt (.text "mdash") (.alt (.text "amp") (.alt (.text "lt") (.text "gt")))))
            (.char ';')))))

/-- What the table has for a match. -/
def lookUp? (found : List Char) : Option (List Char) :=
  (table.find? fun t ↦ t.source = found).map replacement

/-- What a match becomes. It is kept if the table does not have it. -/
def substitute (found : List Char) : List Char := (lookUp? found).getD found

theorem mem_words_iff {found : List Char} :
    found ∈ pattern.words ↔ ∃ t ∈ table, t.source = found := by
  have hwords : ∀ found ∈ pattern.words, found ∈ table.map source := by decide +kernel
  have htable : ∀ t ∈ table, t.source ∈ pattern.words := by decide +kernel
  constructor
  · exact fun h ↦ List.mem_map.mp (hwords found h)
  · rintro ⟨t, ht, rfl⟩
    exact htable t ht

theorem lookUp?_source {t : Markup} (ht : t ∈ table) : lookUp? t.source = some t.replacement := by
  have hall : ∀ t ∈ table, lookUp? t.source = some t.replacement := by decide +kernel
  exact hall t ht

theorem match?_pattern (cs : List Char) : pattern.match? cs = (at? cs).map source := by
  rw [Pattern.match?_eq_find?]
  cases hat : at? cs with
  | none =>
    refine List.find?_eq_none.mpr fun word hword hbegins ↦ ?_
    obtain ⟨t, ht, rfl⟩ := mem_words_iff.mp hword
    exact at?_eq_none_iff.mp hat t ⟨ht, by simpa using hbegins⟩
  | some t =>
    obtain ⟨ht, hbegins⟩ := at?_eq_some_iff.mp hat
    rw [List.drop_zero] at hbegins
    cases hfound : pattern.words.find? (· <+: cs) with
    | none =>
      have hnone := List.find?_eq_none.mp hfound t.source (mem_words_iff.mpr ⟨t, ht, rfl⟩)
      exact absurd (by simpa using hbegins) hnone
    | some word =>
      obtain ⟨u, hu, rfl⟩ := mem_words_iff.mp (List.mem_of_find?_eq_some hfound)
      have hubegins : Occurs cs 0 u := ⟨hu, by simpa using List.find?_some hfound⟩
      rw [hubegins.unique ⟨ht, hbegins⟩]
      rfl

theorem isSome_lookUp?_of_match? {cs found : List Char} (h : pattern.match? cs = some found) :
    (lookUp? found).isSome := by
  rw [match?_pattern, Option.map_eq_some_iff] at h
  obtain ⟨t, hat, rfl⟩ := h
  rw [lookUp?_source (at?_eq_some_iff.mp hat).mem_table]
  rfl

/-- A search that replaces its matches replaces the pieces of the text. -/
theorem replaceAfter_pattern (skip : Nat) (cs : List Char) :
    pattern.replaceAfter substitute skip cs = (piecesAfter skip cs).flatMap Piece.replacement := by
  induction cs generalizing skip with
  | nil => rfl
  | cons c rest ih =>
    cases skip with
    | succ k => rw [Pattern.replaceAfter, piecesAfter, ih]
    | zero =>
      rw [Pattern.replaceAfter, piecesAfter, match?_pattern]
      cases hat : at? (c :: rest) with
      | none => simp [ih, Piece.replacement]
      | some t =>
        have ht : t ∈ table := (at?_eq_some_iff.mp hat).mem_table
        obtain ⟨d, tail, hsource, -⟩ := exists_source_eq_cons ht
        have hsubstitute : substitute (d :: tail) = t.replacement := by
          rw [← hsource, substitute, lookUp?_source ht, Option.getD_some]
        simp [hsource, hsubstitute, ih, Piece.replacement]

theorem replaceAll_pattern (cs : List Char) : pattern.replaceAll substitute cs = replaced cs :=
  replaceAfter_pattern 0 cs

/-! ## Every token once -/

/-- **Every token is replaced once, and nothing else is changed.** The tokens that stand in a
trimmed fragment are apart from each other. The fragment can be cut into these tokens, each in its
place and none missing, and into single characters between them, and the running text is made of
the pieces: of what the table has for the tokens and of the characters as they are. It is also what
a search for the pattern makes of the fragment, and whatever the search finds the table has. If no
token reaches over a place where the fragment is split, both parts can be replaced on their own. -/
theorem every_token_replaced_once (fragment : String) {cs : List Char}
    (hcs : Text.trimmed fragment.toList = cs) :
    (∀ i j t u, Occurs cs i t → Occurs cs j u →
      (i = j ∧ t = u) ∨ i + t.source.length ≤ j ∨ j + u.source.length ≤ i) ∧
    (∃ cut : List Piece, cut.flatMap Piece.source = cs ∧
      (∀ i t, Occurs cs i t ↔ ∃ before after, cut = before ++ .token t :: after ∧
        (before.flatMap Piece.source).length = i) ∧
      (normalize fragment).toList = cut.flatMap Piece.replacement) ∧
    ((normalize fragment).toList = pattern.replaceAll substitute cs ∧
      (∀ found, found ∈ pattern.words ↔ ∃ t ∈ table, t.source = found) ∧
      ∀ text found, pattern.match? text = some found → (lookUp? found).isSome) ∧
    ∀ u v, cs = u ++ v → Apart u v →
      (normalize fragment).toList = replaced u ++ replaced v := by
  rw [toList_normalize, hcs]
  refine ⟨?_, ⟨pieces cs, flatMap_source_pieces cs, fun i t ↦ occurs_iff, rfl⟩, ?_, ?_⟩
  · intro i j t u ht hu
    rcases Nat.lt_trichotomy i j with hlt | rfl | hgt
    · exact Or.inr (Or.inl (ht.le_of_lt hu hlt))
    · exact Or.inl ⟨rfl, ht.unique hu⟩
    · exact Or.inr (Or.inr (hu.le_of_lt ht hgt))
  · exact ⟨(replaceAll_pattern cs).symm, fun _ ↦ mem_words_iff,
      fun _ _ ↦ isSome_lookUp?_of_match?⟩
  · intro u v hsplit hapart
    rw [← replaced_append hapart, ← hsplit]

/-- An escaped entity in italics. It comes out as the entity, which is not replaced again although
it is a token by then. -/
theorem every_token_replaced_once_sample :
    Apart "<i>&amp;".toList "lt;</i>".toList ∧
    (normalize " <i>&amp;lt;</i>\n").toList
      = replaced "<i>&amp;".toList ++ replaced "lt;</i>".toList ∧
    replaced "<i>&amp;".toList ++ replaced "lt;</i>".toList = "*&lt;*".toList := by
  have hapart : Apart "<i>&amp;".toList "lt;</i>".toList := by decide +kernel
  have htrimmed : Text.trimmed " <i>&amp;lt;</i>\n".toList
      = "<i>&amp;".toList ++ "lt;</i>".toList := by
    decide +kernel
  obtain ⟨-, -, -, hsplit⟩ := every_token_replaced_once " <i>&amp;lt;</i>\n" htrimmed
  exact ⟨hapart, hsplit _ _ rfl hapart, by decide +kernel⟩

end Markup

end CitationFilter
