import CitationFilter.Proofs.Citation.Plan
import CitationFilter.Proofs.Document.Frame

/-!
# Every text in its own place

What a resolution that succeeds makes of a document: each cite node holds the texts that the engine
made for the citations of that very node, in their order, and nothing else is different apart from
the paragraphs of the bibliography.

The two ends are the record and the document. A call on the record belongs to an occurrence by its
place among the calls for clusters, and a text belongs to a citation by the group that its cite node
takes off the queue. `Rendered` ties the three together, so that it is one list that is compared
with the record and, cut into groups, with the cite nodes.
-/

namespace CitationFilter

/-! ## Cutting a list into groups -/

section Groups

variable {α β : Type}

theorem splitLengths_map (sizes : List Nat) (as : List α) (f : α → β) :
    sizes.splitLengths (as.map f) = (sizes.splitLengths as).map (List.map f) := by
  induction sizes generalizing as with
  | nil => rfl
  | cons n sizes ih =>
    rw [List.splitLengths_cons, List.splitLengths_cons, List.map_cons, ← List.map_take,
      ← List.map_drop, ih]

/-- Groups that were put together come apart again; what is behind them does not matter. -/
theorem splitLengths_flatten_append (groups : List (List α)) (left : List α) :
    (groups.map List.length).splitLengths (groups.flatten ++ left) = groups := by
  induction groups with
  | nil => rfl
  | cons group groups ih =>
    rw [List.map_cons, List.flatten_cons, List.append_assoc, List.splitLengths_cons,
      List.take_left, List.drop_left, ih]

theorem splitLengths_flatten (groups : List (List α)) :
    (groups.map List.length).splitLengths groups.flatten = groups := by
  simpa using splitLengths_flatten_append groups []

end Groups

/-! ## Calls for clusters -/

theorem Step.Follows.filter_isCluster {σ α : Type} {plan : List Request}
    {p : Step (σ × List Call) α} (hp : Follows plan p)
    (hplan : ∀ request ∈ plan, request.method ≠ "processCitationCluster") {t t' : σ × List Call}
    {a : α} (h : runFrom p t = (.ok a, t')) :
    t'.2.filter Call.isCluster = t.2.filter Call.isCluster := by
  obtain ⟨calls, hcalls, rfl, -⟩ := hp.ok h
  rw [hcalls, List.filter_append, Call.filter_isCluster_eq_nil hplan, List.append_nil]

theorem Cluster.filter_requestsAfter {before : List Position} {clusters : List Cluster}
    {outcomes : List Outcome} :
    (List.zipWith Call.answered (requestsAfter before clusters) outcomes).filter Call.isCluster
      = List.zipWith Call.answered (requestsAfter before clusters) outcomes := by
  induction clusters generalizing before outcomes with
  | nil => rfl
  | cons cluster rest ih =>
    cases outcomes with
    | nil => rfl
    | cons outcome outcomes =>
      rw [requestsAfter, List.zipWith_cons_cons, List.filter_cons_of_pos rfl, ih]

/-! ## Rendered occurrences -/

/-- An occurrence with what the engine answered for its cluster and the text chosen from it. -/
structure Rendered where
  /-- The citation in the text. -/
  occurrence : Occurrence
  /-- The answer for its cluster. -/
  outcome : Outcome
  /-- The text for the document. -/
  text : String
  selected : outcome.text = .ok text

namespace Rendered

/-- What takes the place of a cite node with these occurrences. -/
def value (format : String) (group : List Rendered) : Json :=
  .obj [("t", .str "RawInline"), ("c", .arr [.str format,
    .str (Markup.normalize ("; ".intercalate (group.map fun r ↦ Text.trim r.text)))])]

theorem toJson_rawInline_joined (format : String) (group : List Rendered) :
    (Node.rawInline format (Placement.joined (group.map text))).toJson = value format group := by
  simp [Node.rawInline, Placement.joined, value, Node.toJson, Node.fieldsToJson, Function.comp_def]

theorem exists_of_outcomes {occurrences : List Occurrence} {outcomes : List Outcome}
    {texts : List String} (hlength : occurrences.length = outcomes.length)
    (htexts : outcomes.map Outcome.text = texts.map .ok) :
    ∃ rendered : List Rendered, rendered.map occurrence = occurrences ∧
      rendered.map outcome = outcomes ∧ rendered.map text = texts := by
  induction outcomes generalizing occurrences texts with
  | nil =>
    cases texts with
    | nil => exact ⟨[], (List.eq_nil_of_length_eq_zero hlength).symm, rfl, rfl⟩
    | cons text texts => cases htexts
  | cons outcome outcomes ih =>
    cases texts with
    | nil => cases htexts
    | cons text texts =>
      cases occurrences with
      | nil => cases hlength
      | cons occurrence occurrences =>
        injection htexts with htext htexts
        obtain ⟨rendered, rfl, rfl, rfl⟩ := ih (Nat.succ.inj hlength) htexts
        exact ⟨⟨occurrence, outcome, text, htext⟩ :: rendered, rfl, rfl, rfl⟩

end Rendered

/-! ## From the engine to the document -/

theorem Bibliography.insert_eq_ok {σ : Type} {engine : Engine σ} {format : String}
    {blocks blocks' : List Node} {n : Nat} {s s' : σ}
    (h : Step.runFrom (insert engine format blocks) s = (.ok (blocks', n), s')) :
    (headingIndex? blocks = none ∧ blocks' = blocks) ∨
      ∃ index entries, headingIndex? blocks = some index ∧
        blocks' = insertAfter index (List.map (paragraph format) entries) blocks := by
  rw [insert] at h
  cases hindex : headingIndex? blocks with
  | none =>
    rw [hindex] at h
    cases h
    exact Or.inl ⟨rfl, rfl⟩
  | some index =>
    rw [hindex, Step.runFrom_bind_eq_ok] at h
    obtain ⟨entries, _, -, h⟩ := h
    cases h
    exact Or.inr ⟨index, entries, rfl, rfl⟩

theorem Bibliography.listToJson_insertAfter (index : Nat) (inserted blocks : List Node) :
    Node.listToJson (insertAfter index inserted blocks)
      = (Node.listToJson blocks).take (index + 1) ++ Node.listToJson inserted ++
          (Node.listToJson blocks).drop (index + 1) := by
  simp only [Node.listToJson_eq_map, insertAfter, List.map_append, List.map_take, List.map_drop]

/-- The values of blocks with other values in the places of the cite nodes. -/
def Node.valuesWith (values : List Json) (blocks : List Node) : List Json :=
  listToJson (listFilled blocks (values.map .leaf))

/-- Nothing but the places changes: with the values of the cite nodes themselves the values are
those of the blocks. -/
theorem Node.valuesWith_raw (blocks : List Node) :
    valuesWith ((listCites blocks).map Cite.raw) blocks = listToJson blocks := by
  have hvalues : (((listCites blocks).map Cite.raw).map leaf).map toJson
      = ((listCites blocks).map cite).map toJson := by
    rw [List.map_map, List.map_map, List.map_map]
    rfl
  rw [valuesWith, listToJson_listFilled_congr blocks hvalues, listFilled_map_cite]

namespace Placement

theorem listToJson_placed (format : String) (blocks : List Node) (rendered : List Rendered) :
    Node.listToJson (placed format (rendered.map Rendered.text) blocks)
      = Node.valuesWith (((sizes blocks).splitLengths rendered).map (Rendered.value format))
          blocks := by
  refine Node.listToJson_listFilled_congr blocks ?_
  rw [splitLengths_map, List.map_map, List.map_map, List.map_map, List.map_map]
  refine List.map_congr_left fun group _ ↦ ?_
  exact Rendered.toJson_rawInline_joined format group

/-- The groups of the occurrences are the cite nodes. -/
theorem splitLengths_extract (blocks : List Node) :
    (sizes blocks).splitLengths (Occurrence.extract blocks)
      = (Node.listCites blocks).map Occurrence.ofCite := by
  have hsizes : sizes blocks = ((Node.listCites blocks).map Occurrence.ofCite).map List.length := by
    rw [sizes, List.map_map]
    refine List.map_congr_left fun cite _ ↦ ?_
    exact (List.length_map _).symm
  rw [hsizes, Occurrence.extract, List.flatMap_def, splitLengths_flatten]

end Placement

namespace Resolution

/-- In a document that has been resolved, each cite node holds the texts of its own citations. The
`i`-th call for a cluster is about the `i`-th occurrence, the groups of what was answered are the
cite nodes in order, and each cite node is replaced by the texts of its group. Apart from that and
from the paragraphs behind the heading for the bibliography nothing is changed. -/
theorem texts_in_their_places {σ : Type} {engine : Engine σ} {store : Store} {format : String}
    {document result : Document} {s s' : σ}
    (h : Step.runFrom (resolve engine store format document) s = (.ok result, s')) :
    ∃ (record : List Call) (groups : List (List Rendered)) (values : List Json),
      Step.runFrom (resolve engine.recorded store format document) (s, [])
        = (.ok result, s', record) ∧
      record.filter Call.isCluster
        = List.zipWith Call.answered
            (Cluster.requests (Cluster.numberedFrom 0 (Occurrence.extract document.blocks)))
            (groups.flatten.map Rendered.outcome) ∧
      groups.map (List.map Rendered.occurrence)
        = (Node.listCites document.blocks).map Occurrence.ofCite ∧
      values = Node.valuesWith (groups.map (Rendered.value format)) document.blocks ∧
      ((Bibliography.headingIndex? document.blocks = none ∧
          Node.listToJson result.blocks = values) ∨
        ∃ index entries, Bibliography.headingIndex? document.blocks = some index ∧
          Node.listToJson result.blocks
            = values.take (index + 1) ++
                Node.listToJson (List.map (Bibliography.paragraph format) entries) ++
                values.drop (index + 1)) ∧
      result = { document with blocks := result.blocks } ∧
      ∀ frame, Document.ofJson (.obj frame) = .ok document →
        ∃ before items after, frame = before ++ ("blocks", .arr items) :: after ∧
          Node.listOfJson items = .ok document.blocks ∧
          result.toJson = .obj (before ++ ("blocks", .arr (Node.listToJson result.blocks)) :: after
            ++ Document.addedFields frame) := by
  obtain ⟨record, hrecord⟩ := exists_record h
  obtain ⟨uncited, ⟨s₁, record₁⟩, texts, ⟨s₂, record₂⟩, blocks, n, hregister, hformat, hinsert,
    rfl⟩ := exists_stages hrecord
  obtain ⟨outcomes, houtcomes, rfl⟩ := Cluster.record_of_formatAfter hformat
  have hlength : (Occurrence.extract document.blocks).length = outcomes.length := by
    have htexts := Cluster.length_of_formatAfter hformat
    rw [Cluster.length_numberedFrom] at htexts
    rw [← htexts]
    simpa using congrArg List.length houtcomes.symm
  obtain ⟨rendered, hoccurrences, rfl, rfl⟩ := Rendered.exists_of_outcomes hlength houtcomes
  have hflatten : ((Placement.sizes document.blocks).splitLengths rendered).flatten = rendered := by
    refine List.flatten_splitLengths _ _ (Nat.le_of_eq ?_)
    rw [← Placement.length_extract, hlength, List.length_map]
  refine ⟨record, (Placement.sizes document.blocks).splitLengths rendered, _, hrecord, ?_, ?_, rfl,
    ?_, rfl, fun frame hread ↦ Document.toJson_with_blocks hread blocks⟩
  · -- neither the stage before the clusters nor the one behind them makes calls for clusters
    have hbefore := (register_follows engine store uncited).filter_isCluster
      (fun _ ↦ method_of_mem_registration) hregister
    have hafter := (Bibliography.insert_follows engine format _).filter_isCluster
      (fun _ ↦ method_of_mem_bibliographyRequest) hinsert
    rw [List.filter_append, hbefore, Cluster.filter_requestsAfter, Cluster.requestsAfter_nil]
      at hafter
    rw [hflatten]
    exact hafter
  · rw [← splitLengths_map, hoccurrences, Placement.splitLengths_extract]
  · rw [← Placement.listToJson_placed, ← Bibliography.headingIndex?_placed format
      (rendered.map Rendered.text)]
    rcases Bibliography.insert_eq_ok hinsert with ⟨hnone, rfl⟩ | ⟨index, entries, hindex, rfl⟩
    · exact Or.inl ⟨hnone, rfl⟩
    · exact Or.inr ⟨index, entries, hindex, Bibliography.listToJson_insertAfter _ _ _⟩

theorem texts_in_their_places_sample :
    ∃ groups : List (List Rendered),
      groups.map (List.map Rendered.occurrence)
        = [[⟨"a", none⟩, ⟨"b", none⟩], [⟨"a", none⟩]] ∧
      Node.valuesWith (groups.map (Rendered.value "html")) Document.sample.blocks
        = [.arr [.obj [("t", .str "RawInline"), ("c", .arr [.str "html", .str "a_0; b_1"])],
            .obj [("t", .str "RawInline"), ("c", .arr [.str "html", .str "a_2"])]]] := by
  have h : Step.runFrom (resolve Engine.echo Store.sample "html" Document.sample) ()
      = (.ok ⟨⟨[]⟩, [.array [.rawInline "html" "a_0; b_1", .rawInline "html" "a_2"]], []⟩, ()) := by
    rfl
  obtain ⟨record, groups, values, -, -, hcites, rfl, hblocks, -⟩ := texts_in_their_places h
  rcases hblocks with ⟨-, hvalues⟩ | ⟨index, entries, hindex, -⟩
  · exact ⟨groups, hcites, hvalues.symm⟩
  · cases hindex

end Resolution

end CitationFilter
