import CitationFilter.Proofs.Citation.Places
import CitationFilter.Proofs.Document.Rereading
import CitationFilter.Proofs.Document.Settled
import CitationFilter.Proofs.Json.Legible

/-!
# A resolved document has nothing left to resolve

The document that a resolution makes is read again without a cite node in its blocks. What took the
places of the cite nodes, and the paragraphs of the bibliography, are elements of other kinds,
whatever texts the engine has made; and the values around them are read as before.
-/

namespace CitationFilter

namespace Bibliography

/-- Blocks after the bibliography has been inserted are blocks that were there, or the paragraphs of
its entries. -/
theorem forall_mem_of_insert {σ : Type} {engine : Engine σ} {format : String}
    {blocks blocks' : List Node} {n : Nat} {s s' : σ} {P : Node → Prop}
    (h : Step.runFrom (insert engine format blocks) s = (.ok (blocks', n), s'))
    (hblocks : ∀ block ∈ blocks, P block) (hentries : ∀ entry, P (paragraph format entry)) :
    ∀ block ∈ blocks', P block := by
  rcases insert_eq_ok h with ⟨-, rfl⟩ | ⟨index, entries, -, rfl⟩
  · exact hblocks
  · intro block hblock
    rw [insertAfter, List.mem_append, List.mem_append] at hblock
    rcases hblock with (hbefore | hinserted) | hafter
    · exact hblocks block (List.mem_of_mem_take hbefore)
    · obtain ⟨entry, -, rfl⟩ := List.mem_map.mp hinserted
      exact hentries entry
    · exact hblocks block (List.mem_of_mem_drop hafter)

theorem settling_paragraph (format entry : String) : (paragraph format entry).Settling :=
  Node.settling_paragraph (List.forall_mem_singleton.mpr (Node.settling_rawInline _ _).settled)

theorem fits_rawInline {wanted : Json.Number → Prop} (format text : String) :
    Json.Fits wanted 2 (Node.rawInline format text).toJson :=
  .element (.arr (List.forall_mem_cons.mpr ⟨.str, List.forall_mem_singleton.mpr .str⟩))

theorem fits_paragraph {wanted : Json.Number → Prop} (format entry : String) :
    Json.Fits wanted 4 (paragraph format entry).toJson :=
  .element (.arr (List.forall_mem_singleton.mpr (fits_rawInline _ _)))

end Bibliography

namespace Placement

/-- Without cite nodes there is nothing to do and nothing to take from the queue. -/
theorem run_of_listCites_eq_nil {blocks : List Node} (h : Node.listCites blocks = [])
    (format : String) : run format ⟨[]⟩ blocks = (.ok blocks, ⟨[]⟩) := by
  have hnone : Occurrence.extract blocks = [] := by
    rw [Occurrence.extract, h, List.flatMap_nil]
  have hsizes : sizes blocks = [] := by rw [sizes, h, List.map_nil]
  have hroom : (Occurrence.extract blocks).length ≤ ([] : List String).length :=
    Nat.le_of_eq (congrArg List.length hnone)
  rw [run_eq format blocks hroom, hnone, placed, hsizes, List.splitLengths_nil,
    List.map_nil, Node.listFilled_nil]
  rfl

theorem settling_placed_texts (format : String) (groups : List (List String)) :
    ∀ node ∈ groups.map fun group ↦ Node.rawInline format (joined group), node.Settling := by
  rw [List.forall_mem_map]
  exact fun group _ ↦ Node.settling_rawInline format (joined group)

theorem settled_placed {items : List Json} {blocks : List Node}
    (h : Node.listOfJson items = .ok blocks) (format : String) (texts : List String) :
    ∀ block ∈ placed format texts blocks, block.toJson.Settled := by
  refine Node.forall_settled_listFilled h ?_ (settling_placed_texts format _)
  rw [List.length_map, List.length_splitLengths, sizes, List.length_map]

end Placement

namespace Resolution

variable {σ : Type} {engine : Engine σ} {store : Store} {format : String}
  {document result : Document} {s s' : σ}

theorem settled_of_resolve {frame : List (String × Json)}
    (hdocument : Document.ofJson (.obj frame) = .ok document)
    (h : Step.runFrom (resolve engine store format document) s = (.ok result, s')) :
    ∀ block ∈ result.blocks, block.toJson.Settled := by
  obtain ⟨items, -, hitems⟩ :=
    Document.exists_lookup_of_blocksOf (Document.ofJson_eq_ok hdocument).2.1
  obtain ⟨uncited, s₁, texts, s₂, blocks, n, -, -, hinsert, rfl⟩ := exists_stages h
  exact Bibliography.forall_mem_of_insert hinsert (Placement.settled_placed hitems format texts)
    fun entry ↦ (Bibliography.settling_paragraph format entry).settled

theorem fits_of_resolve {frame : List (String × Json)} {wanted : Json.Number → Prop}
    (hdocument : Document.ofJson (.obj frame) = .ok document)
    (hfits : Json.Fits wanted Json.Reader.deepest (.obj frame))
    (h : Step.runFrom (resolve engine store format document) s = (.ok result, s')) :
    Json.Fits wanted Json.Reader.deepest result.toJson := by
  obtain ⟨uncited, s₁, texts, s₂, blocks, n, -, -, hinsert, rfl⟩ := exists_stages h
  refine Document.fits_with_blocks hdocument hfits ?_
  refine Bibliography.forall_mem_of_insert hinsert ?_ fun entry ↦
    (Bibliography.fits_paragraph format entry).mono (by decide)
  refine Document.forall_fits_listFilled_blocks hdocument hfits ?_
  rw [List.forall_mem_map]
  exact fun group _ ↦ (Bibliography.fits_rawInline format _).mono (by decide)

/-- **Nothing is left to resolve.** When a document that was read is resolved, the text of the
result is read as a document again. It has no cite nodes in its blocks, so no occurrences; placing
texts in them succeeds with an empty queue, for any format, and leaves them as they are. Its blocks
are the blocks of the result but for binary numbers, which are read anew. -/
theorem nothing_left_to_resolve (engine : Engine σ) (store : Store) (format text : String)
    (document result : Document) (s s' : σ)
    (hdocument : Document.ofText text = .ok document)
    (h : Step.runFrom (resolve engine store format document) s = (.ok result, s')) :
    ∃ again, Document.ofText result.toText = .ok again ∧
      Node.listCites again.blocks = [] ∧ Occurrence.extract again.blocks = [] ∧
      (∀ otherFormat, Placement.run otherFormat ⟨[]⟩ again.blocks = (.ok again.blocks, ⟨[]⟩)) ∧
      Node.listToJson again.blocks = (Node.listToJson result.blocks).map Json.reread := by
  obtain ⟨frame, hframe, hread⟩ := Document.exists_read_of_ofText hdocument
  have hfits := fits_of_resolve hread (Json.fits_of_read? hframe) h
  have htext : Json.read? result.toText = some result.toJson.reread :=
    (hfits.imp fun _ hx ↦ hx.legible).read?_text
  -- every block is read as a tree without cite nodes
  have hitems : ∀ item ∈ (Node.listToJson result.blocks).map Json.reread,
      ∃ node, Node.ReadsSettled item node := by
    rw [Node.listToJson_eq_map, List.map_map, List.forall_mem_map]
    exact fun block hblock ↦ (settled_of_resolve hread h block hblock).reread.exists_node
  obtain ⟨blocks, hblocks, hcites, hvalues⟩ := Node.exists_listOfJson_of_settled hitems
  have hagain : Document.ofText result.toText = .ok ⟨⟨Json.rereadFields result.metadata.fields⟩,
      blocks, Json.rereadFields result.written⟩ := by
    rw [← Json.rereadItems_eq_map] at hblocks
    rw [Document.ofText_eq_of_read? htext]
    exact Document.ofJson_reread_toJson result hblocks
  refine ⟨_, hagain, hcites, ?_, fun otherFormat ↦ ?_, hvalues⟩
  · rw [Occurrence.extract, hcites, List.flatMap_nil]
  · exact Placement.run_of_listCites_eq_nil hcites otherFormat

end Resolution

/-! ## A text that looks like a cite node -/

/-- An engine that answers with what looks like the beginning of a cite node. -/
def Engine.quoting : Engine Unit where
  setOutputFormat _ := pure ()
  updateItems _ := pure ()
  updateUncitedItems _ := pure ()
  processCluster cluster _ _ := pure ⟨true, [⟨cluster.noteIndex, "\x7b\"t\":\"Cite\","⟩]⟩
  makeBibliography := pure ["\x7b\"t\":\"Cite\"\x7d"]

/-- The value of a document with one cite node, before the heading for the bibliography. -/
def Json.citing : Json := .obj [("meta", .obj []), ("blocks", .arr [
  .obj [("t", .str "Cite"), ("c", .arr [.arr [.obj [("citationId", .str "a")]], .arr []])],
  .obj [("t", .str "Header"), ("c", .arr [.num (.int 1), .null, .arr [
    .obj [("t", .str "Str"), ("c", .str "Bibliography")]]])]])]

theorem Resolution.nothing_left_to_resolve_of_quoting :
    ∃ document result again, Document.ofText Json.citing.text = .ok document ∧
      Step.runFrom (resolve Engine.quoting Store.sample "html" document) () = (.ok result, ()) ∧
      Document.ofText result.toText = .ok again ∧ Occurrence.extract again.blocks = [] := by
  have hvalue : Json.read? Json.citing.text = some Json.citing :=
    Json.read?_text (by decide +kernel) rfl rfl
  obtain ⟨document, result, hdocument, hrun⟩ : ∃ document result,
      Document.ofJson Json.citing = .ok document ∧
        Step.runFrom (resolve Engine.quoting Store.sample "html" document) () = (.ok result, ()) :=
    ⟨_, _, rfl, rfl⟩
  rw [← Document.ofText_eq_of_read? hvalue] at hdocument
  obtain ⟨again, hagain, -, hnone, -⟩ :=
    nothing_left_to_resolve Engine.quoting Store.sample "html" Json.citing.text document result
      () () hdocument hrun
  exact ⟨document, result, again, hdocument, hrun, hagain, hnone⟩

end CitationFilter
