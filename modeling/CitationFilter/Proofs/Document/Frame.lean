import CitationFilter.Document.Basic
import CitationFilter.Proofs.Except
import CitationFilter.Proofs.Json.Fields

/-!
# The frame of a document

A document is written into the object that it was read from. Only the value of `blocks` can change
there: the metadata are those that were read, and every other field is the one that was there, in
the place where it was. Metadata that were not there at all come last, as an empty object.
-/

namespace CitationFilter

namespace Json

theorem eq_obj_of_asFields {value : Json} {fields : List (String × Json)}
    (h : value.asFields = .ok fields) : value = .obj fields := by
  cases value with
  | obj fields' =>
    cases h
    rfl
  | null => cases h
  | bool b => cases h
  | num n => cases h
  | str s => cases h
  | arr items => cases h

end Json

namespace Document

/-- What is written behind the other fields: the metadata, if there were none to be read. -/
def addedFields (frame : List (String × Json)) : List (String × Json) :=
  match frame.lookup "meta" with
  | some _ => []
  | none => [("meta", .obj [])]

variable {frame : List (String × Json)} {document : Document}

/-- Metadata that were read are written back where they were. -/
theorem put_metadataOf {metadata : Metadata} (h : metadataOf frame = .ok metadata) :
    Json.put "meta" (.obj metadata.fields) frame = frame ++ addedFields frame := by
  rw [metadataOf] at h
  rw [addedFields]
  split at h
  · rename_i hnone
    cases h
    rw [hnone, Json.put_of_lookup_eq_none hnone]
  · rename_i value hsome
    split at h
    · rename_i fields hfields
      cases h
      rw [Json.eq_obj_of_asFields hfields] at hsome
      rw [hsome, Json.put_of_lookup_eq_some hsome, List.append_nil]
    · cases h

theorem ofJson_eq_ok (h : ofJson (.obj frame) = .ok document) :
    metadataOf frame = .ok document.metadata ∧ blocksOf frame = .ok document.blocks ∧
      document.frame = frame := by
  obtain ⟨metadata, hmetadata, h⟩ := Except.bind_eq_ok.mp h
  obtain ⟨blocks, hblocks, h⟩ := Except.bind_eq_ok.mp h
  cases h
  exact ⟨hmetadata, hblocks, rfl⟩

theorem exists_lookup_of_blocksOf {blocks : List Node} (h : blocksOf frame = .ok blocks) :
    ∃ items, frame.lookup "blocks" = some (.arr items) ∧ Node.listOfJson items = .ok blocks := by
  rw [blocksOf] at h
  split at h
  · cases h
  · rename_i items hitems
    exact ⟨items, hitems, Except.mapError_eq_ok.mp h⟩
  · cases h

/-- A document with other blocks is written as it was read, with the other blocks in the place of
those that were read. -/
theorem toJson_with_blocks (h : ofJson (.obj frame) = .ok document) (blocks : List Node) :
    ∃ before items after, frame = before ++ ("blocks", .arr items) :: after ∧
      Node.listOfJson items = .ok document.blocks ∧
      toJson { document with blocks } = .obj
        (before ++ ("blocks", .arr (Node.listToJson blocks)) :: after ++ addedFields frame) := by
  obtain ⟨hmetadata, hblocks, hframe⟩ := ofJson_eq_ok h
  obtain ⟨items, hitems, hread⟩ := exists_lookup_of_blocksOf hblocks
  obtain ⟨before, after, hsplit, hbefore⟩ := Json.exists_eq_append_of_lookup hitems
  refine ⟨before, items, after, hsplit, hread, ?_⟩
  rw [toJson]
  dsimp only
  rw [hframe, put_metadataOf hmetadata]
  -- the fields that are added come last, so they do not matter for where the blocks are
  generalize addedFields frame = added
  rw [hsplit, List.append_assoc, List.cons_append, Json.put_append_cons hbefore, List.append_assoc,
    List.cons_append]

end Document

end CitationFilter
