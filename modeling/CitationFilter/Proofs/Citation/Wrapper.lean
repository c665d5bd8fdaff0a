import CitationFilter.Proofs.Citation.Tokens
import CitationFilter.Proofs.Text.Trim

/-!
# The wrapper of an entry

The engine wraps an entry of the bibliography in two tokens, which are the only ones that nothing
stands for (`Markup.mem_wrapper_iff`). A fragment is trimmed before its tokens are replaced. So
blanks that stand inside the wrapper are not trimmed, and once the wrapper is gone, they stand at an
end of the running text.

No token is replaced by a text with blanks, so a blank of the running text was already a blank of
the fragment, with the same pieces around it (`Markup.exists_char_of_flatMap_eq`). Therefore there
is no other way to end up with blanks at an end.
-/

namespace CitationFilter

namespace Markup

/-- The token at the front of an entry. -/
def entryOpening : Markup := ofTexts "<div class=\"csl-entry\">" ""

/-- The token at the back of an entry. -/
def entryClosing : Markup := ofTexts "</div>" ""

/-- The tokens around an entry. -/
def wrapper : List Markup := [entryOpening, entryClosing]

theorem mem_wrapper_iff {t : Markup} : t ∈ wrapper ↔ t ∈ table ∧ t.replacement = [] := by
  have hwrapper : ∀ t ∈ wrapper, t ∈ table ∧ t.replacement = [] := by decide +kernel
  have htable : ∀ t ∈ table, t.replacement = [] → t ∈ wrapper := by decide +kernel
  exact ⟨hwrapper t, fun h ↦ htable t h.1 h.2⟩

/-! ## Without the wrapper -/

variable {tags : List Markup}

theorem replaced_wrapper_append (h : ∀ t ∈ tags, t ∈ wrapper) (rest : List Char) :
    replaced (tags.flatMap source ++ rest) = replaced rest := by
  induction tags with
  | nil => rfl
  | cons t tags ih =>
    rw [List.forall_mem_cons] at h
    obtain ⟨ht, hreplacement⟩ := mem_wrapper_iff.mp h.1
    rw [List.flatMap_cons, List.append_assoc, replaced_source_append ht, hreplacement, ih h.2]
    rfl

theorem replaced_append_wrapper (h : ∀ t ∈ tags, t ∈ wrapper) (front : List Char) :
    replaced (front ++ tags.flatMap source) = replaced front := by
  have hnone : replaced (tags.flatMap source) = [] := by
    rw [← List.append_nil (tags.flatMap source), replaced_wrapper_append h]
    rfl
  cases tags with
  | nil => rw [List.flatMap_nil, List.append_nil]
  | cons t tags =>
    have ht : t ∈ table := (mem_wrapper_iff.mp (h t List.mem_cons_self)).1
    rw [List.flatMap_cons] at hnone ⊢
    rw [replaced_append (apart_source_append ht front _), hnone, List.append_nil]

theorem toList_normalize_entry (text : String) :
    (normalize ("<div class=\"csl-entry\">" ++ text ++ "</div>\n")).toList
      = replaced text.toList := by
  have hsplit : ("<div class=\"csl-entry\">" ++ text ++ "</div>\n").toList
      = [] ++ (entryOpening.source ++ text.toList ++ entryClosing.source) ++ ['\n'] := by
    simp [entryOpening, entryClosing, ofTexts]
  have htight : Text.Tight (entryOpening.source ++ text.toList ++ entryClosing.source) := by
    refine Text.Tight.append_append ?_ ?_ ?_ ?_ text.toList <;> decide +kernel
  have hopening : replaced ([entryOpening].flatMap source ++ (text.toList ++ entryClosing.source))
      = replaced (text.toList ++ entryClosing.source) :=
    replaced_wrapper_append (by decide +kernel) _
  have hclosing : replaced (text.toList ++ [entryClosing].flatMap source)
      = replaced text.toList :=
    replaced_append_wrapper (by decide +kernel) text.toList
  rw [List.flatMap_singleton] at hopening hclosing
  have hbreak : ∀ c ∈ ['\n'], Text.isBlank c := List.forall_mem_singleton.mpr (by decide)
  rw [toList_normalize, hsplit, Text.trimmed_append_append (by simp) hbreak,
    htight.trimmed_eq, List.append_assoc, hopening, hclosing]

/-! ## Where the blanks of running text come from -/

theorem opens_eq_false_of_isBlank {c : Char} (h : Text.isBlank c) : opens c = false := by
  by_contra hopens
  rw [Bool.not_eq_false, opens] at hopens
  simp only [Bool.or_eq_true, decide_eq_true_eq] at hopens
  rcases hopens with rfl | rfl
  · exact absurd h (by decide)
  · exact absurd h (by decide)

/-- No token ends in a blank, so one does not belong to a token that begins before it. -/
theorem apart_blank (u : List Char) {c : Char} (h : Text.isBlank c) : Apart u [c] := by
  have hlast : ∀ t ∈ table, t.source.getLast?.all fun d ↦ !Text.isBlank d := by decide +kernel
  refine apart_cons fun t ht before after _ hafter hsource ↦ ?_
  have hc := hlast t ht
  rw [hsource, List.prefix_nil.mp hafter, List.getLast?_concat] at hc
  exact absurd h (by simpa using hc)

theorem eq_char_of_mem_replacement {piece : Piece} (htable : ∀ t, piece = .token t → t ∈ table)
    {c : Char} (hc : Text.isBlank c) (h : c ∈ piece.replacement) : piece = .char c := by
  have hall : ∀ t ∈ table, t.replacement.all fun d ↦ !Text.isBlank d := by decide +kernel
  rcases piece with t | d
  · have hnot := List.all_eq_true.mp (hall t (htable t rfl)) c h
    exact absurd hc (by simpa using hnot)
  · rw [List.mem_singleton.mp h]

theorem exists_char_of_flatMap_eq {cut : List Piece} (htable : ∀ t, .token t ∈ cut → t ∈ table)
    {front back : List Char} {c : Char} (hc : Text.isBlank c)
    (h : cut.flatMap Piece.replacement = front ++ c :: back) :
    ∃ before after, cut = before ++ .char c :: after ∧
      before.flatMap Piece.replacement = front ∧ after.flatMap Piece.replacement = back := by
  induction cut generalizing front with
  | nil => simp at h
  | cons piece cut ih =>
    -- behind the first piece
    have hbehind (rest : List Char) (hfront : front = piece.replacement ++ rest)
        (hrest : cut.flatMap Piece.replacement = rest ++ c :: back) :
        ∃ before after, piece :: cut = before ++ .char c :: after ∧
          before.flatMap Piece.replacement = front ∧
          after.flatMap Piece.replacement = back := by
      obtain ⟨before, after, rfl, rfl, rfl⟩ :=
        ih (fun t ht ↦ htable t (List.mem_cons_of_mem _ ht)) hrest
      exact ⟨piece :: before, after, rfl, hfront.symm, rfl⟩
    rw [List.flatMap_cons] at h
    rcases List.append_eq_append_iff.mp h with ⟨rest, hfront, hrest⟩ | ⟨rest, hpiece, hrest⟩
    · exact hbehind rest hfront hrest
    · rcases rest with _ | ⟨d, rest⟩
      · rw [List.append_nil] at hpiece
        exact hbehind [] (by rw [hpiece, List.append_nil]) hrest.symm
      · -- in the first piece, which then is the blank
        obtain ⟨rfl, rfl⟩ := List.cons.inj hrest
        have hchar : piece = .char c :=
          eq_char_of_mem_replacement (fun t ht ↦ htable t (ht ▸ List.mem_cons_self)) hc
            (by rw [hpiece]; exact List.mem_append_right _ List.mem_cons_self)
        subst hchar
        rcases List.singleton_eq_append_iff.mp hpiece with ⟨rfl, hrest⟩ | ⟨-, hnil⟩
        · obtain rfl := (List.cons.inj hrest).2
          exact ⟨[], cut, rfl, rfl, rfl⟩
        · exact absurd hnil (by simp)

theorem exists_tags_of_flatMap_eq_nil {cut : List Piece} (htable : ∀ t, .token t ∈ cut → t ∈ table)
    (h : cut.flatMap Piece.replacement = []) :
    ∃ tags : List Markup, (∀ t ∈ tags, t ∈ wrapper) ∧
      cut.flatMap Piece.source = tags.flatMap source := by
  induction cut with
  | nil => exact ⟨[], by simp, rfl⟩
  | cons piece cut ih =>
    rw [List.flatMap_cons, List.append_eq_nil_iff] at h
    obtain ⟨tags, htags, hsource⟩ := ih (fun t ht ↦ htable t (List.mem_cons_of_mem _ ht)) h.2
    rcases piece with t | c
    · refine ⟨t :: tags, ?_, ?_⟩
      · rw [List.forall_mem_cons]
        exact ⟨mem_wrapper_iff.mpr ⟨htable t List.mem_cons_self, h.1⟩, htags⟩
      · rw [List.flatMap_cons, List.flatMap_cons, hsource]
        rfl
    · exact absurd h.1 (by simp [Piece.replacement])

/-- A blank of the running text is one of the text. If nothing is left on one side of it, then
only tokens of the wrapper were there. -/
theorem exists_split_of_replaced_eq {cs front back : List Char} {c : Char} (hc : Text.isBlank c)
    (h : replaced cs = front ++ c :: back) :
    ∃ u v, cs = u ++ c :: v ∧
      (front = [] → ∃ tags : List Markup, (∀ t ∈ tags, t ∈ wrapper) ∧ u = tags.flatMap source) ∧
      (back = [] → ∃ tags : List Markup, (∀ t ∈ tags, t ∈ wrapper) ∧ v = tags.flatMap source) := by
  have htable : ∀ t, .token t ∈ pieces cs → t ∈ table := fun t ↦ mem_table_of_mem_pieces
  obtain ⟨before, after, hcut, hfront, hback⟩ := exists_char_of_flatMap_eq htable hc h
  rw [hcut] at htable
  refine ⟨before.flatMap Piece.source, after.flatMap Piece.source, ?_, ?_, ?_⟩
  · rw [← flatMap_source_pieces cs, hcut, List.flatMap_append, List.flatMap_cons]
    rfl
  · intro hnone
    exact exists_tags_of_flatMap_eq_nil (fun t ht ↦ htable t (by simp [ht])) (hfront.trans hnone)
  · intro hnone
    exact exists_tags_of_flatMap_eq_nil (fun t ht ↦ htable t (by simp [ht])) (hback.trans hnone)

/-! ## Blanks at the ends -/

/-- No blank stands at an end of the text, or would if the tokens of the wrapper were not there. -/
structure Snug (cs : List Char) : Prop where
  front : ∀ tags : List Markup, (∀ t ∈ tags, t ∈ wrapper) →
    ∀ c, tags.flatMap source ++ [c] <+: cs → Text.isBlank c = false
  back : ∀ tags : List Markup, (∀ t ∈ tags, t ∈ wrapper) →
    ∀ c, c :: tags.flatMap source <:+ cs → Text.isBlank c = false

theorem snug_of_tight_replaced {cs : List Char} (h : Text.Tight (replaced cs)) : Snug cs := by
  constructor
  · rintro tags htags c ⟨rest, rfl⟩
    by_contra hblank
    rw [Bool.not_eq_false] at hblank
    rw [List.append_assoc, replaced_wrapper_append htags, List.singleton_append,
      replaced_cons (opens_eq_false_of_isBlank hblank)] at h
    exact absurd (h.front c rfl) (by simp [hblank])
  · rintro tags htags c ⟨front, rfl⟩
    by_contra hblank
    rw [Bool.not_eq_false] at hblank
    rw [← List.singleton_append, ← List.append_assoc, replaced_append_wrapper htags,
      replaced_append (apart_blank front hblank),
      replaced_cons (opens_eq_false_of_isBlank hblank)] at h
    exact absurd (h.back c List.getLast?_concat) (by simp [hblank])

theorem tight_replaced_of_snug {cs : List Char} (h : Snug cs) : Text.Tight (replaced cs) := by
  constructor
  · intro c hc
    by_contra hblank
    rw [Bool.not_eq_false] at hblank
    obtain ⟨back, hback⟩ := List.head?_eq_some_iff.mp hc
    obtain ⟨u, v, rfl, hfront, -⟩ :=
      exists_split_of_replaced_eq hblank (hback.trans (List.nil_append _).symm)
    obtain ⟨tags, htags, rfl⟩ := hfront rfl
    exact absurd (h.front tags htags c ⟨v, by simp⟩) (by simp [hblank])
  · intro c hc
    by_contra hblank
    rw [Bool.not_eq_false] at hblank
    obtain ⟨front, hfront⟩ := List.getLast?_eq_some_iff.mp hc
    obtain ⟨u, v, rfl, -, hback⟩ := exists_split_of_replaced_eq hblank hfront
    obtain ⟨tags, htags, rfl⟩ := hback rfl
    exact absurd (h.back tags htags c ⟨u, rfl⟩) (by simp [hblank])

/-- **Which texts have no blanks at their ends.** A fragment is trimmed, but running text has blanks
at an end all the same if in the fragment they stand next to the wrapper of an entry. Running text
is tight exactly if the trimmed fragment neither begins with tokens of the wrapper and a blank
behind them nor ends with a blank and tokens of the wrapper behind it. -/
theorem tight_normalize_iff (fragment : String) :
    Text.Tight (normalize fragment).toList ↔ Snug (Text.trimmed fragment.toList) := by
  rw [toList_normalize]
  exact ⟨snug_of_tight_replaced, tight_replaced_of_snug⟩

/-- An entry on lines of its own: the line break and the indentation stay in front of the text. -/
theorem blank_inside_wrapper :
    normalize "<div class=\"csl-entry\">\n  Smith</div>" = "\n  Smith" ∧
    ¬Text.Tight (normalize "<div class=\"csl-entry\">\n  Smith</div>").toList := by
  decide +kernel

end Markup

end CitationFilter
