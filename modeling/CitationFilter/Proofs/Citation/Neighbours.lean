import CitationFilter.Proofs.Citation.Places
import CitationFilter.Proofs.Citation.Tokens
import CitationFilter.Proofs.Text.Trim

/-!
# Texts side by side

The texts for a cite node are joined before they become running text, although each of them should
become running text by itself. That makes no difference unless a token is formed across a separator
or something that does not stand at an end of the whole is trimmed.

A separator begins with a semicolon, and a semicolon can only end a token. So the first happens
only behind an entity that lacks just that. The second happens only if the last of several texts is
blank, because then the end of the separator before it is the end of the whole.
-/

namespace CitationFilter

/-! ## Across a separator -/

namespace Markup

/-- The entities without the semicolons that end them. -/
def openEntities : List (List Char) :=
  ["&ndash", "&mdash", "&amp", "&lt", "&gt"].map String.toList

theorem mem_openEntities {t : Markup} (ht : t ∈ table) {before after : List Char}
    (h : t.source = before ++ ';' :: after) : before ∈ openEntities := by
  have hall : ∀ t ∈ table, ∀ k < t.source.length, t.source[k]? = some ';' →
      t.source.take k ∈ openEntities := by
    decide +kernel
  have hmem := hall t ht before.length (by simp [h]) (by simp [h])
  rwa [h, List.take_left] at hmem

theorem apart_semicolon {u : List Char} (h : ∀ entity ∈ openEntities, ¬entity <:+ u)
    (rest : List Char) : Apart u (';' :: rest) := by
  refine apart_cons fun t ht before after hbefore _ hsource ↦ ?_
  exact h before (mem_openEntities ht hsource) hbefore

/-- What stands between two texts. -/
def separator : List Char := "; ".toList

theorem replaced_append_separator {u : List Char} (h : ∀ entity ∈ openEntities, ¬entity <:+ u)
    (v : List Char) : replaced (u ++ separator ++ v) = replaced u ++ separator ++ replaced v := by
  have hseparator : separator = [';', ' '] := by decide +kernel
  rw [hseparator, List.append_assoc, List.append_assoc]
  show replaced (u ++ ';' :: ' ' :: v) = replaced u ++ ';' :: ' ' :: replaced v
  rw [replaced_append (apart_semicolon h _), replaced_cons (by decide), replaced_cons (by decide)]

/-- Texts that are joined can be replaced one by one, unless one of them but the last ends in an
entity without its semicolon. -/
theorem replaced_intercalate {words : List (List Char)}
    (h : ∀ word ∈ words.dropLast, ∀ entity ∈ openEntities, ¬entity <:+ word) :
    replaced (separator.intercalate words) = separator.intercalate (words.map replaced) := by
  induction words with
  | nil => rfl
  | cons word rest ih =>
    cases rest with
    | nil => rw [List.map_singleton, List.intercalate_singleton, List.intercalate_singleton]
    | cons next rest =>
      rw [List.dropLast_cons_cons, List.forall_mem_cons] at h
      rw [List.map_cons, List.map_cons, List.intercalate_cons_cons, List.intercalate_cons_cons,
        replaced_append_separator h.1, ih h.2, List.map_cons]

/-! ## At the ends -/

theorem getLast?_intercalate {words : List (List Char)} {last : List Char}
    (hlast : words.getLast? = some last) (hne : last ≠ []) :
    (separator.intercalate words).getLast? = last.getLast? := by
  induction words with
  | nil => cases hlast
  | cons word rest ih =>
    cases rest with
    | nil => rw [List.intercalate_singleton, ← Option.some_inj.mp hlast, List.getLast_singleton]
    | cons next rest =>
      rw [List.getLast?_cons_cons] at hlast
      rw [List.intercalate_cons_cons, List.getLast?_append, ih hlast,
        List.getLast?_eq_getLast_of_ne_nil hne, Option.some_or]

theorem tight_intercalate {words : List (List Char)} (h : ∀ word ∈ words, Text.Tight word)
    (hlast : words.length = 1 ∨ ∀ word ∈ words.getLast?, word ≠ []) :
    Text.Tight (separator.intercalate words) := by
  rcases words with _ | ⟨word, _ | ⟨next, rest⟩⟩
  · exact Text.tight_nil
  · rw [List.intercalate_singleton]
    exact h word List.mem_cons_self
  · have hlast := hlast.resolve_left (by simp)
    constructor
    · intro c hc
      rw [List.intercalate_cons_cons, List.append_assoc] at hc
      rcases word with _ | ⟨d, word⟩
      · -- the separator comes first
        rw [← Option.mem_some.mp hc]
        decide
      · exact (h (d :: word) List.mem_cons_self).front c hc
    · intro c hc
      obtain ⟨last, hsome⟩ : ∃ last, (word :: next :: rest).getLast? = some last :=
        ⟨_, List.getLast?_eq_getLast_of_ne_nil (List.cons_ne_nil _ _)⟩
      rw [getLast?_intercalate hsome (hlast last hsome)] at hc
      exact (h last (List.mem_of_getLast? hsome)).back c hc

end Markup

/-! ## The texts of a cite node -/

/-- Texts that can be joined without changing each other: the last one is not blank, unless it is
the only one, and none of the others ends in an entity without its semicolon. -/
structure Separable (texts : List String) : Prop where
  last : texts.length = 1 ∨ ∀ text ∈ texts.getLast?, ¬Text.allBlank text
  ends : ∀ text ∈ texts.dropLast, ∀ entity ∈ Markup.openEntities,
    ¬entity <:+ Text.trimmed text.toList

namespace Separable

variable {texts : List String}

theorem tight (h : Separable texts) :
    Text.Tight (Markup.separator.intercalate (texts.map fun text ↦ Text.trimmed text.toList)) := by
  apply Markup.tight_intercalate
  · exact List.forall_mem_map.mpr fun text _ ↦ Text.tight_trimmed _
  · rw [List.length_map, List.getLast?_map]
    refine h.last.imp_right fun hlast word hword ↦ ?_
    obtain ⟨text, htext, rfl⟩ := Option.map_eq_some_iff.mp hword
    exact Text.trimmed_ne_nil (hlast text htext)

theorem replaced_intercalate (h : Separable texts) :
    Markup.replaced (Markup.separator.intercalate
        (texts.map fun text ↦ Text.trimmed text.toList))
      = Markup.separator.intercalate
          (texts.map fun text ↦ Markup.replaced (Text.trimmed text.toList)) := by
  have hends : ∀ word ∈ (texts.map fun text ↦ Text.trimmed text.toList).dropLast,
      ∀ entity ∈ Markup.openEntities, ¬entity <:+ word := by
    rw [← List.map_dropLast]
    exact List.forall_mem_map.mpr h.ends
  rw [Markup.replaced_intercalate hends, List.map_map]
  rfl

end Separable

namespace Placement

theorem toList_intercalate_map (f : String → String) (texts : List String) :
    ("; ".intercalate (texts.map f)).toList
      = Markup.separator.intercalate (texts.map fun text ↦ (f text).toList) := by
  rw [String.toList_intercalate, List.map_map]
  rfl

theorem joined_eq_intercalate {texts : List String} (h : Separable texts) :
    joined texts = "; ".intercalate (texts.map Markup.normalize) := by
  have htrim (text : String) : (Text.trim text).toList = Text.trimmed text.toList := by
    rw [Text.trim, String.toList_ofList]
  rw [← String.toList_inj, joined, Markup.toList_normalize, toList_intercalate_map,
    toList_intercalate_map]
  simp only [htrim, Markup.toList_normalize]
  rw [h.tight.trimmed_eq, h.replaced_intercalate]

/-- Behind an entity that lacks its semicolon the separator is taken for it. -/
example : joined ["A &amp", "B"] = "A & B" := by decide +kernel

/-- Behind a blank text nothing separates the one before it from the end. -/
example : joined ["A", " "] = "A;" := by decide +kernel

/-- With a group of texts for each cite node, as many as it has citations, every cite node gets its
own group, and what is behind the groups is left over. -/
theorem run_groups (format : String) {blocks : List Node} {groups : List (List String)}
    (h : groups.map List.length = sizes blocks) (left : List String) :
    run format ⟨groups.flatten ++ left⟩ blocks
      = (.ok (Node.listFilled blocks (groups.map fun group ↦ .rawInline format (joined group))),
          ⟨left⟩) := by
  have hlength : (Occurrence.extract blocks).length = groups.flatten.length := by
    rw [length_extract, ← h, List.length_flatten]
  have hle : (Occurrence.extract blocks).length ≤ (groups.flatten ++ left).length := by
    rw [hlength, List.length_append]
    exact Nat.le_add_right _ _
  rw [run_eq format blocks hle, hlength, List.drop_left, placed, ← h, splitLengths_flatten_append]

/-- **Neighbours do not mix.** Let there be a group of texts for each cite node, as many as it has
citations. In the place of a cite node then stands what its group is joined to, and if the texts of
the group are separable, that is what each of them is by itself, with semicolons between. -/
theorem neighbours_do_not_mix (format : String) {blocks : List Node} {groups : List (List String)}
    (h : groups.map List.length = sizes blocks) (left : List String) :
    ∃ written : List String,
      run format ⟨groups.flatten ++ left⟩ blocks
        = (.ok (Node.listFilled blocks (written.map (Node.rawInline format))), ⟨left⟩) ∧
      List.Forall₂ (fun group text ↦
        Separable group → text = "; ".intercalate (group.map Markup.normalize)) groups written := by
  refine ⟨groups.map joined, ?_, ?_⟩
  · rw [run_groups format h left, List.map_map]
    rfl
  · rw [List.forall₂_map_right_iff]
    exact List.forall₂_same.mpr fun group _ hseparable ↦ joined_eq_intercalate hseparable

/-- Three texts for one cite node. The first one is trimmed, and the second one would be followed by
the rest of an entity if it were replaced before the texts are joined. -/
theorem neighbours_do_not_mix_sample :
    ∃ text, run "html" ⟨[" <i>A</i> ", "B &amp;amp", "C"]⟩
        [.cite ⟨[⟨"a", []⟩, ⟨"b", []⟩, ⟨"c", []⟩], .null⟩]
          = (.ok [.rawInline "html" text], ⟨[]⟩) ∧
      text = "; ".intercalate ["*A*", "B &amp", "C"] := by
  have hseparable : Separable [" <i>A</i> ", "B &amp;amp", "C"] :=
    ⟨Or.inr (by decide +kernel), by decide +kernel⟩
  have hsizes : [[" <i>A</i> ", "B &amp;amp", "C"]].map List.length
      = sizes [.cite ⟨[⟨"a", []⟩, ⟨"b", []⟩, ⟨"c", []⟩], .null⟩] := rfl
  obtain ⟨written, hrun, hwritten⟩ := neighbours_do_not_mix "html" hsizes []
  obtain ⟨text, rest, htext, hrest, rfl⟩ := List.forall₂_cons_left_iff.mp hwritten
  obtain rfl := List.forall₂_nil_left_iff.mp hrest
  refine ⟨text, hrun, ?_⟩
  rw [htext hseparable]
  decide +kernel

end Placement

end CitationFilter
