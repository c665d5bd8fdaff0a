import CitationFilter.Citation.Clusters
import CitationFilter.Proofs.Citation.Brackets

/-!
# When there is a locator

A suffix without text gives no locator. Whether there is text is decided after the pieces of the
suffix have been joined, and from two pieces on the bars between them are text as well. So no text
in any piece means no locator only as long as there is at most one piece.
-/

namespace CitationFilter

namespace Locator

theorem intercalate_bar_eq_empty_iff (words : List String) :
    "|".intercalate words = "" ↔ words = [] ∨ words = [""] := by
  rcases words with _ | ⟨word, _ | ⟨next, rest⟩⟩
  · simp
  · simp
  · simp [String.intercalate_cons_cons]

theorem isSome_ofSuffix?_iff (suffix : List Json) :
    (ofSuffix? suffix).isSome ↔
      (∃ piece ∈ pieces suffix, piece ≠ "") ∨ 2 ≤ (pieces suffix).length := by
  have hjoined : (ofSuffix? suffix).isSome ↔ ¬"|".intercalate (pieces suffix) = "" := by
    by_cases h : "|".intercalate (pieces suffix) = "" <;> simp [ofSuffix?, h]
  rw [hjoined, intercalate_bar_eq_empty_iff]
  rcases pieces suffix with _ | ⟨piece, _ | ⟨next, rest⟩⟩
  · simp
  · simp
  · simp

/-- **When there is a locator.** An occurrence has a locator exactly if one of the texts in the
suffix of its citation is more than its brackets, or if there are several texts. Its cluster is sent
with the locator if it has one, and else without such a field. -/
theorem locator_present_iff (citation : Citation) :
    ((Occurrence.ofCitation citation).locator.isSome ↔
      (∃ s ∈ citation.suffix.filterMap pieceText?, unbracketed s.toList ≠ []) ∨
        2 ≤ (citation.suffix.filterMap pieceText?).length) ∧
    ∀ noteIndex, (Cluster.ofOccurrence (.ofCitation citation) noteIndex).items.map
        (fun item ↦ item.toJson.get? "locator")
      = [(Occurrence.ofCitation citation).locator.map Json.str] := by
  constructor
  · rw [Occurrence.ofCitation, isSome_ofSuffix?_iff, pieces_eq_map, List.length_map]
    simp
  · intro noteIndex
    rw [Cluster.ofOccurrence, List.map_singleton, ClusterItem.toJson]
    cases (Occurrence.ofCitation citation).locator <;> rfl

/-- What a pair of brackets with a space between them is as inlines. -/
def spacedBrackets : List Json :=
  [.obj [("t", .str "Str"), ("c", .str "[")], .obj [("t", .str "Space")],
    .obj [("t", .str "Str"), ("c", .str "]")]]

/-- There is no text between the brackets, but the two pieces are joined to a locator. -/
theorem locator_without_text :
    (Occurrence.ofCitation ⟨"a", spacedBrackets⟩).locator = some "|" ∧
    ∀ s ∈ spacedBrackets.filterMap pieceText?, unbracketed s.toList = [] := by
  decide +kernel

end Locator

end CitationFilter
