import CitationFilter.Proofs.Citation.Wrapper
import Mathlib.Logic.Function.Iterate

/-!
# Escaped text

An engine that writes markup has to escape plain text: the three characters that mean something in
markup are written as entities. Making running text of it undoes exactly that. Each entity is
replaced by its character, and the character is not looked at again, so it does not matter what the
characters form once they are put together (`Markup.replaced_flatMap_escaped`).

Escaping does not touch blanks and puts none in, so it makes no difference whether a text is trimmed
before or after it is escaped.
-/

namespace CitationFilter

namespace Markup

/-- A character as it is written in markup. -/
def escaped (c : Char) : List Char :=
  if c = '&' then "&amp;".toList
  else if c = '<' then "&lt;".toList
  else if c = '>' then "&gt;".toList
  else [c]

/-- A plain text as it is written in markup. -/
def escape (text : String) : String := String.ofList (text.toList.flatMap escaped)

/-! ## Characters -/

/-- A character is written as the entity that stands for it, unless it can be written as it is. -/
theorem escaped_cases (c : Char) :
    (∃ t ∈ table, escaped c = t.source ∧ t.replacement = [c]) ∨
      (escaped c = [c] ∧ opens c = false) := by
  by_cases hand : c = '&'
  · subst hand
    exact Or.inl ⟨ofTexts "&amp;" "&", by decide +kernel, rfl, by decide +kernel⟩
  by_cases hless : c = '<'
  · subst hless
    exact Or.inl ⟨ofTexts "&lt;" "<", by decide +kernel, rfl, by decide +kernel⟩
  by_cases hgreater : c = '>'
  · subst hgreater
    exact Or.inl ⟨ofTexts "&gt;" ">", by decide +kernel, rfl, by decide +kernel⟩
  · refine Or.inr ⟨?_, by simp [opens, hand, hless]⟩
    rw [escaped, if_neg hand, if_neg hless, if_neg hgreater]

theorem escaped_ne_nil (c : Char) : escaped c ≠ [] := by
  rcases escaped_cases c with ⟨t, ht, hescaped, -⟩ | ⟨hescaped, -⟩
  · rw [hescaped]
    exact List.ne_nil_of_length_pos (length_source_pos ht)
  · rw [hescaped]
    exact List.cons_ne_nil c []

theorem isBlank_of_mem_escaped {c d : Char} (h : d ∈ escaped c) :
    Text.isBlank d = Text.isBlank c := by
  have hentities : ['&', '<', '>'].all fun c ↦
      (escaped c).all fun d ↦ Text.isBlank d == Text.isBlank c := by
    decide +kernel
  by_cases hc : c ∈ ['&', '<', '>']
  · have hall := List.all_eq_true.mp hentities c hc
    exact beq_iff_eq.mp (List.all_eq_true.mp hall d h)
  · simp only [List.mem_cons, List.not_mem_nil, or_false, not_or] at hc
    rw [escaped, if_neg hc.1, if_neg hc.2.1, if_neg hc.2.2, List.mem_singleton] at h
    rw [h]

/-! ## Texts -/

/-- Replacing undoes escaping, whatever the text is. -/
theorem replaced_flatMap_escaped (cs : List Char) : replaced (cs.flatMap escaped) = cs := by
  induction cs with
  | nil => rfl
  | cons c cs ih =>
    rw [List.flatMap_cons]
    rcases escaped_cases c with ⟨t, ht, hescaped, hreplacement⟩ | ⟨hescaped, hopens⟩
    · rw [hescaped, replaced_source_append ht, hreplacement, ih, List.singleton_append]
    · rw [hescaped, List.singleton_append, replaced_cons hopens, ih]

theorem forall_isBlank_flatMap_escaped {cs : List Char} (h : ∀ c ∈ cs, Text.isBlank c) :
    ∀ c ∈ cs.flatMap escaped, Text.isBlank c := by
  intro d hd
  obtain ⟨c, hc, hdc⟩ := List.mem_flatMap.mp hd
  rw [isBlank_of_mem_escaped hdc, h c hc]

theorem tight_flatMap_escaped {cs : List Char} (h : Text.Tight cs) :
    Text.Tight (cs.flatMap escaped) := by
  constructor
  · intro d hd
    rcases cs with _ | ⟨c, rest⟩
    · simp at hd
    · rw [List.flatMap_cons, List.head?_append_of_ne_nil _ (escaped_ne_nil c)] at hd
      rw [isBlank_of_mem_escaped (List.mem_of_head? hd)]
      exact h.front c rfl
  · intro d hd
    rcases List.eq_nil_or_concat' cs with rfl | ⟨front, c, rfl⟩
    · simp at hd
    · rw [List.flatMap_append, List.flatMap_singleton,
        List.getLast?_append_of_ne_nil _ (escaped_ne_nil c)] at hd
      rw [isBlank_of_mem_escaped (List.mem_of_getLast? hd)]
      exact h.back c List.getLast?_concat

theorem trimmed_flatMap_escaped (cs : List Char) :
    Text.trimmed (cs.flatMap escaped) = (Text.trimmed cs).flatMap escaped := by
  obtain ⟨u, v, hu, hv, hcs⟩ := Text.exists_eq_append_trimmed cs
  have htight : Text.Tight ((Text.trimmed cs).flatMap escaped) :=
    tight_flatMap_escaped (Text.tight_trimmed cs)
  calc Text.trimmed (cs.flatMap escaped)
      = Text.trimmed (u.flatMap escaped ++ (Text.trimmed cs).flatMap escaped
          ++ v.flatMap escaped) := by
        rw [← List.flatMap_append, ← List.flatMap_append, ← hcs]
    _ = (Text.trimmed cs).flatMap escaped := by
        rw [Text.trimmed_append_append (forall_isBlank_flatMap_escaped hu)
          (forall_isBlank_flatMap_escaped hv), htight.trimmed_eq]

theorem trim_escape (text : String) : Text.trim (escape text) = escape (Text.trim text) := by
  rw [Text.trim, escape, String.toList_ofList, trimmed_flatMap_escaped, escape, Text.trim,
    String.toList_ofList]

theorem normalize_escape (text : String) : normalize (escape text) = Text.trim text := by
  rw [normalize, escape, String.toList_ofList, trimmed_flatMap_escaped, replaced_flatMap_escaped,
    Text.trim]

/-! ## Entries of a bibliography -/

/-- An escaped text in the wrapper of an entry comes back as well. Blanks at its ends stay, because
the wrapper stands around them when the entry is trimmed. -/
theorem normalize_entry (text : String) :
    normalize ("<div class=\"csl-entry\">" ++ escape text ++ "</div>\n") = text := by
  rw [← String.toList_inj, toList_normalize_entry, escape, String.toList_ofList,
    replaced_flatMap_escaped]

/-- **Escaped text comes back.** Running text made of an escaped text is the text itself, trimmed,
and in the wrapper of an entry it is the text as it is. This holds of every text, whatever markup or
entities it seems to have: a text that has been escaped before comes back escaped, to any depth. -/
theorem escaped_text_comes_back (text : String) :
    normalize (escape text) = Text.trim text ∧
    normalize ("<div class=\"csl-entry\">" ++ escape text ++ "</div>\n") = text ∧
    ∀ depth, normalize (escape^[depth + 1] text) = escape^[depth] (Text.trim text) := by
  refine ⟨normalize_escape text, normalize_entry text, fun depth ↦ ?_⟩
  have hcommute : Function.Commute Text.trim escape := trim_escape
  rw [Function.iterate_succ_apply', normalize_escape]
  exact hcommute.iterate_right depth text

/-- A text that looks like markup, once it is escaped, and one that was escaped before. -/
example : ["<i>&ndash;</i>", "&amp;lt;"].map (fun text ↦ normalize (escape text))
    = ["<i>&ndash;</i>", "&amp;lt;"] := by
  decide +kernel

end Markup

end CitationFilter
