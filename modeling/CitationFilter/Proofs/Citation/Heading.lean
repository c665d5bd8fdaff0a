import CitationFilter.Proofs.Citation.Consumption
import CitationFilter.Proofs.Document.Positions
import CitationFilter.Proofs.Document.Rereading

/-!
# Resolving citations does not make a heading

The heading for the bibliography is looked for after the citations have been resolved. Whatever the
engine says, its texts are then in raw inlines, and those show no text. So the heading is found
where it was before, if there was one: every node of the blocks shows the text that it showed, and
every header has the title that it had. This also holds of what is read when the blocks have been
written, although a raw inline is then read as an object with an array inside.
-/

namespace CitationFilter

open Node (KeepsText listFilled readRawInline ReadAgain)

namespace Placement

variable {format : String} {queue left : FormattedQueue} {blocks result : List Node}

theorem eq_placed_of_run (h : run format queue blocks = (.ok result, left)) :
    result = placed format queue.texts blocks := by
  rcases run_cases format blocks queue with ⟨hcount, -⟩ | ⟨before, cite, after, -, -, -, hrun⟩
  · rw [citationCount_listCites] at hcount
    rw [run_eq format blocks hcount] at h
    exact (Except.ok.inj (congrArg Prod.fst h)).symm
  · rw [hrun] at h
    cases congrArg Prod.fst h

theorem readAgain_rawInlines (format : String) (texts : List String) :
    ReadAgain (texts.map (.rawInline format)) (texts.map (readRawInline format)) := by
  rw [ReadAgain, List.forall₂_map_left_iff, List.forall₂_map_right_iff, List.forall₂_same]
  exact fun text _ ↦ ⟨rfl, Node.ofJson_rawInline format text⟩

end Placement

namespace Bibliography

theorem keeps_of_blank (blocks : List Node) {nodes : List Node}
    (h : ∀ node ∈ nodes, node.Blank) :
    KeepsText (.array blocks) (.array (listFilled blocks nodes)) ∧
      headingIndex? (listFilled blocks nodes) = headingIndex? blocks :=
  ⟨Node.keepsText_filled (.array blocks) h,
    headingIndex?_listFilled blocks fun node hnode ↦ (h node hnode).toMute⟩

/-- **The heading stays where it is.** When the cite nodes of blocks that were read have been
replaced by the texts of a queue, all nodes of the blocks show the same text as before, the headers
are the same with the same titles, and the heading for the bibliography is the same block, if there
is one. The rewritten blocks can be written and read again, and the same holds of the result. -/
theorem resolving_keeps_heading {items : List Json} {blocks : List Node} {format : String}
    {queue left : FormattedQueue} {result : List Node}
    (hread : Node.listOfJson items = .ok blocks)
    (hrun : Placement.run format queue blocks = (.ok result, left)) :
    ∃ again, Node.listOfJson (Node.listToJson result) = .ok again ∧
      ∀ after ∈ [result, again], KeepsText (.array blocks) (.array after) ∧
        headingIndex? after = headingIndex? blocks := by
  set texts := ((Placement.sizes blocks).splitLengths queue.texts).map Placement.joined with htexts
  have hresult : result = listFilled blocks (texts.map (.rawInline format)) := by
    rw [Placement.eq_placed_of_run hrun, Placement.placed, htexts, List.map_map]
    rfl
  have hagain := Node.listOfJson_listToJson_filled hread
    (Placement.readAgain_rawInlines format texts)
  rw [← hresult] at hagain
  refine ⟨_, hagain, List.forall_mem_cons.mpr ⟨?_, List.forall_mem_singleton.mpr ?_⟩⟩
  · rw [hresult]
    exact keeps_of_blank blocks
      (List.forall_mem_map.mpr fun text _ ↦ Node.blank_rawInline format text)
  · exact keeps_of_blank blocks
      (List.forall_mem_map.mpr fun text _ ↦ Node.blank_readRawInline format text)

/-- The texts of the engine read like the name of a heading, but they are no part of a title. Two of
the citations stand in an object in the places of its tag and its contents. -/
theorem resolving_keeps_heading_of_nested :
    let str (s : String) : Json := .obj [("t", .str "Str"), ("c", .str s)]
    let cite : Json := .obj [("t", .str "Cite"),
      ("c", .arr [.arr [.obj [("citationId", .str "a")]], .arr []])]
    let header (inlines : List Json) : Json :=
      .obj [("t", .str "Header"), ("c", .arr [.num (.int 1), .null, .arr inlines])]
    let items : List Json := [header [cite, .obj [("t", cite), ("c", cite)]],
      header [str "Biblio", cite, str "graphy"]]
    ∃ blocks result again, Node.listOfJson items = .ok blocks ∧
      Placement.run "html" ⟨List.replicate 4 "Bibliography"⟩ blocks = (.ok result, ⟨[]⟩) ∧
      Node.listOfJson (Node.listToJson result) = .ok again ∧
      headingIndex? result = some 1 ∧ headingIndex? again = some 1 := by
  intro str cite header items
  obtain ⟨blocks, hblocks, hsize, hheading⟩ : ∃ blocks, Node.listOfJson items = .ok blocks ∧
      (Occurrence.extract blocks).length = 4 ∧ headingIndex? blocks = some 1 :=
    ⟨_, rfl, rfl, by decide⟩
  have hrun : Placement.run "html" ⟨List.replicate 4 "Bibliography"⟩ blocks
      = (.ok (Placement.placed "html" (List.replicate 4 "Bibliography") blocks), ⟨[]⟩) := by
    rw [Placement.run_eq "html" blocks (by rw [hsize]; decide), hsize]
    rfl
  obtain ⟨again, hagain, hkeeps⟩ := resolving_keeps_heading hblocks hrun
  have hindex : ∀ after ∈ [_, again], headingIndex? after = some 1 := fun after hafter ↦
    (hkeeps after hafter).2.trans hheading
  exact ⟨blocks, _, again, hblocks, hrun, hagain, hindex _ (by simp), hindex _ (by simp)⟩

end Bibliography

end CitationFilter
