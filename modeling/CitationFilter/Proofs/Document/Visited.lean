import CitationFilter.Proofs.Document.Citations
import CitationFilter.Proofs.Document.RoundTrip

/-!
# No malformed cite node is skipped

Every object with the tag of cite nodes that the reader comes by has to be one: if its citations
cannot be read, nothing is read at all, rather than a generic object in its place.

Where the reader comes by is said here of values alone. `Json.parts` are the values that one goes on
to from a value, and `Json.visited` are all values that one comes to in this way, in document order;
what is inside of a cite node, or besides the inlines in a header, is not among them. The reader is
compared with this list by one equation, `Node.map_cites_ofJson`: the cite nodes of the tree that is
read are what the tagged objects are read as one after the other, and the reader fails where the
first of these readings fails.
-/

namespace CitationFilter

namespace Json

/-! ## The values that are visited -/

/-- The values that one goes on to from a value, in order: the elements of an array, and the values
in an object. Cite nodes are not entered, and headers only by way of their inlines. -/
def parts : Json → List Json
  | .arr items => items
  | .obj fields =>
    match fields.lookup "t", fields.lookup "c" with
    | some (.str "Cite"), _ => []
    | some (.str "Header"), some (.arr [_, _, .arr inlines]) => [.arr inlines]
    | _, _ => fields.map Prod.snd
  | _ => []

theorem sizeOf_lt_of_mem_fields {fields : List (String × Json)} {field : String × Json}
    (h : field ∈ fields) : sizeOf field.2 < sizeOf (Json.obj fields) := by
  have hfield := List.sizeOf_lt_of_mem h
  obtain ⟨key, value⟩ := field
  simp only [Prod.mk.sizeOf_spec, Json.obj.sizeOf_spec] at hfield ⊢
  omega

theorem sizeOf_lt_of_mem_parts {value part : Json} (h : part ∈ value.parts) :
    sizeOf part < sizeOf value := by
  match value with
  | .arr items =>
    have hitem : sizeOf part < sizeOf items := List.sizeOf_lt_of_mem h
    simp only [Json.arr.sizeOf_spec]
    omega
  | .obj fields =>
    rw [parts] at h
    split at h
    · cases h
    · rename_i inlines hcontents
      obtain rfl := List.mem_singleton.mp h
      have hfield := sizeOf_lt_of_mem_fields (mem_of_lookup hcontents)
      simp only [Json.arr.sizeOf_spec, List.cons.sizeOf_spec] at hfield ⊢
      omega
    · obtain ⟨field, hfield, rfl⟩ := List.mem_map.mp h
      exact sizeOf_lt_of_mem_fields hfield

/-- The value and all values that one comes to from it, in document order. -/
def visited (value : Json) : List Json :=
  value :: value.parts.attach.flatMap fun part ↦ visited part.1
termination_by sizeOf value
decreasing_by exact sizeOf_lt_of_mem_parts part.2

theorem visited_eq (value : Json) : value.visited = value :: value.parts.flatMap visited := by
  rw [visited]
  simp

/-- Whether a value is an object with the tag of cite nodes. -/
def isTaggedCite (value : Json) : Bool := (value.get? "t").bind text? = some "Cite"

/-- The objects with the tag of cite nodes that are visited, in document order. -/
def citeNodes (value : Json) : List Json := value.visited.filter isTaggedCite

theorem citeNodes_eq (value : Json) :
    value.citeNodes
      = (if value.isTaggedCite then [value] else []) ++ value.parts.flatMap citeNodes := by
  have hparts : (value.parts.flatMap visited).filter isTaggedCite
      = value.parts.flatMap citeNodes := List.filter_flatMap
  rw [citeNodes, visited_eq, List.filter_cons, hparts]
  split <;> rfl

/-! ## The parts of an object -/

theorem parts_obj (fields : List (String × Json)) :
    (Json.obj fields).parts =
      match Node.form fields with
      | .cite => []
      | .header _ _ inlines => [.arr inlines]
      | .object => fields.map Prod.snd := by
  rw [parts]
  split
  · rename_i htag
    rw [Node.form_eq_cite_iff.mpr htag]
  · rename_i htag hcontents
    rw [Node.form, Node.shape_eq_header_iff.mpr htag, Node.contents?, hcontents]
    rfl
  · rename_i hcite hheader
    cases hform : Node.form fields with
    | cite => exact (hcite (Node.form_eq_cite_iff.mp hform)).elim
    | header level attributes inlines =>
      have htag := Node.shape_eq_header_iff.mp (Node.form_eq_header hform).1
      exact absurd (Node.lookup_of_form_eq_header hform) (hheader _ _ _ htag)
    | object => rfl

theorem isTaggedCite_obj (fields : List (String × Json)) :
    (Json.obj fields).isTaggedCite = true ↔ Node.form fields = .cite := by
  rw [Node.form_eq_cite_iff, ← Json.bind_text?_eq_some_iff]
  exact decide_eq_true_iff

theorem citeNodes_of_isLeaf {value : Json} (h : value.IsLeaf) : value.citeNodes = [] := by
  rw [citeNodes_eq]
  cases value with
  | arr | obj => exact h.elim
  | null | bool | num | str => rfl

theorem citeNodes_arr (items : List Json) :
    (Json.arr items).citeNodes = items.flatMap citeNodes := by
  rw [citeNodes_eq, parts]
  rfl

theorem citeNodes_obj (fields : List (String × Json)) :
    (Json.obj fields).citeNodes =
      match Node.form fields with
      | .cite => [.obj fields]
      | .header _ _ inlines => inlines.flatMap citeNodes
      | .object => (fields.map Prod.snd).flatMap citeNodes := by
  rw [citeNodes_eq, parts_obj]
  by_cases hcite : Node.form fields = .cite
  · rw [if_pos ((isTaggedCite_obj fields).mpr hcite), hcite]
    rfl
  · rw [if_neg (mt (isTaggedCite_obj fields).mp hcite), List.nil_append]
    cases hform : Node.form fields with
    | cite => exact absurd hform hcite
    | header level attributes inlines => rw [List.flatMap_singleton, citeNodes_arr]
    | object => rfl

end Json

namespace Node

open Json (citeNodes)

/-! ## The reader and the list of the cite nodes -/

theorem map_listCites_listOfJson {items : List Json}
    (h : ∀ item ∈ items, (ofJson item).map cites = item.citeNodes.mapM Cite.ofJson) :
    (listOfJson items).map listCites = (items.flatMap citeNodes).mapM Cite.ofJson := by
  induction items with
  | nil => rfl
  | cons item rest ih =>
    obtain ⟨hitem, hrest⟩ := List.forall_mem_cons.mp h
    rw [List.flatMap_cons, List.mapM_append, ← hitem, ← ih hrest, listOfJson]
    rcases ofJson item with fault | node
    · rfl
    · rcases listOfJson rest with fault | nodes
      · rfl
      · rfl

/-- The keys of fields have no part in what their values are read as. -/
theorem listOfJson_map_snd (fields : List (String × Json)) :
    listOfJson (fields.map Prod.snd) = (fieldsOfJson fields).map (List.map Prod.snd) := by
  induction fields with
  | nil => rfl
  | cons field rest ih =>
    obtain ⟨key, value⟩ := field
    rw [List.map_cons, fieldsOfJson, listOfJson, ih]
    rcases ofJson value with fault | node
    · rfl
    · rcases fieldsOfJson rest with fault | nodes
      · rfl
      · rfl

theorem fieldCites_eq (fields : List (String × Node)) :
    fieldCites fields = listCites (fields.map Prod.snd) := by
  induction fields with
  | nil => rfl
  | cons field rest ih => rw [fieldCites, ih, List.map_cons, listCites]

/-- **The reader comes by every cite node.** The cite nodes of the tree that is read from a value
are what the tagged objects are read as, in document order, and reading fails where that fails. -/
theorem map_cites_ofJson (value : Json) :
    (ofJson value).map cites = value.citeNodes.mapM Cite.ofJson := by
  induction value using Json.visited.induct with
  | case1 value ih =>
    have hparts : ∀ part ∈ value.parts, (ofJson part).map cites = part.citeNodes.mapM Cite.ofJson :=
      fun part hpart ↦ ih ⟨part, hpart⟩
    clear ih
    match value with
    | .obj fields =>
      rw [ofJson_obj, Json.citeNodes_obj]
      rw [Json.parts_obj] at hparts
      cases hform : form fields with
      | cite =>
        dsimp only
        rw [List.mapM_cons, List.mapM_nil]
        rcases Cite.ofJson (.obj fields) with fault | cite
        · rfl
        · rfl
      | header level attributes inlines =>
        -- the inlines are read as the array is in which they stand
        rw [hform] at hparts
        have harray := hparts (.arr inlines) List.mem_cons_self
        rw [Json.citeNodes_arr, ofJson] at harray
        dsimp only
        rw [← harray]
        rcases listOfJson inlines with fault | nodes
        · rfl
        · rfl
      | object =>
        rw [hform] at hparts
        have hvalues := map_listCites_listOfJson hparts
        rw [listOfJson_map_snd] at hvalues
        rw [← hvalues]
        rcases fieldsOfJson fields with fault | nodes
        · rfl
        · exact congrArg Except.ok (fieldCites_eq nodes)
    | .arr items =>
      have hitems : ∀ item ∈ items, (ofJson item).map cites = item.citeNodes.mapM Cite.ofJson := by
        rwa [Json.parts] at hparts
      rw [Json.citeNodes_arr, ← map_listCites_listOfJson hitems, ofJson]
      rcases listOfJson items with fault | nodes
      · rfl
      · rfl
    | .null | .bool _ | .num _ | .str _ =>
      rw [Json.citeNodes_of_isLeaf]
      · rfl
      · trivial

end Node

/-! ## The first fault -/

/-- The value has the citations that a cite node has to have. -/
def Json.ListsCitations (raw : Json) : Prop := ∃ citations, raw.IsCite citations

namespace Cite

/-- The first of the values without the citations of a cite node, and why it is rejected. -/
def FirstFault (raws : List Json) (fault : CitationFault) : Prop :=
  ∃ before raw after, raws = before ++ raw :: after ∧ (∀ other ∈ before, other.ListsCitations) ∧
    ¬raw.ListsCitations ∧ ofJson raw = .error fault

/-- The cite nodes are what the values stand for, one by one. -/
def AreRead (raws : List Json) (cites : List Cite) : Prop :=
  List.Forall₂ (fun raw cite ↦ cite.raw = raw ∧ raw.IsCite cite.citations) raws cites

variable {raws : List Json} {fault : CitationFault} {cites : List Cite}

theorem exists_ofJson_eq_ok_iff {raw : Json} :
    (∃ cite, ofJson raw = .ok cite) ↔ raw.ListsCitations := by
  simp only [ofJson_eq_ok_iff]
  constructor
  · rintro ⟨cite, -, hcite⟩
    exact ⟨cite.citations, hcite⟩
  · rintro ⟨citations, hcite⟩
    exact ⟨⟨citations, raw⟩, rfl, hcite⟩

theorem mapM_ofJson_eq_error_iff : raws.mapM ofJson = .error fault ↔ FirstFault raws fault := by
  rw [Except.mapM_eq_error_iff]
  simp only [exists_ofJson_eq_ok_iff]
  constructor
  · rintro ⟨before, raw, after, hraws, hbefore, hraw⟩
    have hlists : ¬raw.ListsCitations := by
      rw [← exists_ofJson_eq_ok_iff, hraw]
      rintro ⟨cite, ⟨⟩⟩
    exact ⟨before, raw, after, hraws, hbefore, hlists, hraw⟩
  · rintro ⟨before, raw, after, hraws, hbefore, -, hraw⟩
    exact ⟨before, raw, after, hraws, hbefore, hraw⟩

theorem areRead_of_mapM_ofJson (h : raws.mapM ofJson = .ok cites) : AreRead raws cites := by
  simpa only [AreRead, Except.mapM_eq_ok_iff, ofJson_eq_ok_iff] using h

theorem AreRead.lists (h : AreRead raws cites) : ∀ raw ∈ raws, raw.ListsCitations :=
  ((List.forall₂_and_left _ _).mp (h.imp fun _ cite hcite ↦ ⟨⟨cite.citations, hcite.2⟩, hcite⟩)).1

theorem exists_firstFault_iff :
    (∃ fault, FirstFault raws fault) ↔ ∃ raw ∈ raws, ¬raw.ListsCitations := by
  constructor
  · rintro ⟨fault, before, raw, after, rfl, -, hraw, -⟩
    exact ⟨raw, by simp, hraw⟩
  · rintro ⟨raw, hmem, hraw⟩
    cases hread : raws.mapM ofJson with
    | error fault => exact ⟨fault, mapM_ofJson_eq_error_iff.mp hread⟩
    | ok cites => exact (hraw ((areRead_of_mapM_ofJson hread).lists raw hmem)).elim

end Cite

namespace Node

variable {value : Json} {items : List Json} {fault : CitationFault}

theorem ofJson_eq_error_iff :
    ofJson value = .error fault ↔ Cite.FirstFault value.citeNodes fault := by
  rw [← Cite.mapM_ofJson_eq_error_iff, ← map_cites_ofJson, Except.map_eq_error]

theorem areRead_of_ofJson {node : Node} (h : ofJson value = .ok node) :
    Cite.AreRead value.citeNodes node.cites := by
  apply Cite.areRead_of_mapM_ofJson
  rw [← map_cites_ofJson, h]
  rfl

theorem map_listCites_eq (items : List Json) :
    (listOfJson items).map listCites = (items.flatMap Json.citeNodes).mapM Cite.ofJson :=
  map_listCites_listOfJson fun item _ ↦ map_cites_ofJson item

theorem listOfJson_eq_error_iff :
    listOfJson items = .error fault ↔ Cite.FirstFault (items.flatMap Json.citeNodes) fault := by
  rw [← Cite.mapM_ofJson_eq_error_iff, ← map_listCites_eq, Except.map_eq_error]

theorem areRead_of_listOfJson {nodes : List Node} (h : listOfJson items = .ok nodes) :
    Cite.AreRead (items.flatMap Json.citeNodes) (listCites nodes) := by
  apply Cite.areRead_of_mapM_ofJson
  rw [← map_listCites_eq, h]
  rfl

end Node

namespace Document

variable {text : String} {frame : List (String × Json)} {items : List Json}

/-- With metadata and an array of blocks, a document is rejected if and only if the blocks are, and
for the same reason. -/
theorem ofText_eq_of_blocks {metadata : Metadata} (htext : Json.read? text = some (.obj frame))
    (hmetadata : metadataOf frame = .ok metadata)
    (hitems : frame.lookup "blocks" = some (.arr items)) :
    ofText text = ((Node.listOfJson items).map fun blocks ↦ ⟨metadata, blocks, frame⟩).mapError
      .malformedCitation := by
  have hblocks : blocksOf frame = (Node.listOfJson items).mapError .malformedCitation := by
    rw [blocksOf, hitems]
  rw [ofText, htext]
  dsimp only
  rw [ofJson, hmetadata, hblocks]
  rcases Node.listOfJson items with fault | blocks
  · rfl
  · rfl

end Document

/-- **No malformed cite node is skipped.** A value is rejected exactly if one of the tagged objects
that are visited in it is without the citations of a cite node, and then for the fault of the first
such object. Otherwise the cite nodes of the tree are these objects in document order, each with the
citations that it lists. So a document is rejected as well if there is such an object in its blocks,
for the fault of the first one unless its metadata are at fault already. -/
theorem malformed_cite_never_skipped :
    (∀ value fault, Node.ofJson value = .error fault ↔ Cite.FirstFault value.citeNodes fault) ∧
    (∀ value, (∃ fault, Node.ofJson value = .error fault) ↔
      ∃ raw ∈ value.citeNodes, ¬raw.ListsCitations) ∧
    (∀ value node, Node.ofJson value = .ok node → Cite.AreRead value.citeNodes node.cites) ∧
    ∀ text frame items, Json.read? text = some (.obj frame) →
      frame.lookup "blocks" = some (.arr items) →
      (∀ metadata fault, Document.metadataOf frame = .ok metadata →
        (Document.ofText text = .error (.malformedCitation fault) ↔
          Cite.FirstFault (items.flatMap Json.citeNodes) fault)) ∧
      ((∃ raw ∈ items.flatMap Json.citeNodes, ¬raw.ListsCitations) →
        ∃ error, Document.ofText text = .error error) ∧
      ∀ document, Document.ofText text = .ok document →
        Cite.AreRead (items.flatMap Json.citeNodes) (Node.listCites document.blocks) := by
  refine ⟨fun value fault ↦ Node.ofJson_eq_error_iff, fun value ↦ ?_,
    fun value node h ↦ Node.areRead_of_ofJson h, fun text frame items htext hitems ↦ ?_⟩
  · simp only [Node.ofJson_eq_error_iff, Cite.exists_firstFault_iff]
  have hread : ∀ document, Document.ofText text = .ok document →
      Cite.AreRead (items.flatMap Json.citeNodes) (Node.listCites document.blocks) := by
    intro document hdocument
    obtain ⟨_, hframe, hdocument⟩ := Document.exists_read_of_ofText hdocument
    obtain rfl := Json.obj.inj (Option.some.inj (hframe.symm.trans htext))
    obtain ⟨_, hblocks, hlist⟩ :=
      Document.exists_lookup_of_blocksOf (Document.ofJson_eq_ok hdocument).2.1
    obtain rfl := Json.arr.inj (Option.some.inj (hblocks.symm.trans hitems))
    exact Node.areRead_of_listOfJson hlist
  refine ⟨fun metadata fault hmetadata ↦ ?_, fun hmalformed ↦ ?_, hread⟩
  · rw [Document.ofText_eq_of_blocks htext hmetadata hitems, ← Node.listOfJson_eq_error_iff]
    simp [Except.mapError_eq_error, Except.map_eq_error]
  · cases hdocument : Document.ofText text with
    | error error => exact ⟨error, rfl⟩
    | ok document =>
      obtain ⟨raw, hmem, hraw⟩ := hmalformed
      exact (hraw ((hread document hdocument).lists raw hmem)).elim

/-- A document with a citation of three fields. The first object with the tag of cite nodes is the
attributes of a header and is not visited, the second one is as it should be, the third one decides,
and the last one, without any citations, comes too late. -/
theorem malformed_cite_in_heading :
    let cite (contents : List Json) : Json := .obj [("t", .str "Cite"), ("c", .arr contents)]
    let good := cite [.arr [.arr [.str "a"]], .arr []]
    let bad := cite [.arr [.arr [.str "a", .arr [], .null]], .arr []]
    let blocks : List Json :=
      [.obj [("t", .str "Header"), ("c", .arr [.num (.int 1), cite [], .arr [good, bad]])],
        .obj [("t", .str "Header"), ("c", .arr [cite []])]]
    let value : Json := .obj [("meta", .obj []), ("blocks", .arr blocks)]
    blocks.flatMap Json.citeNodes = [good, bad, cite []] ∧
      Document.ofText value.text = .error (.malformedCitation (.shape (.tooLong 3))) := by
  intro cite good bad blocks value
  have hvalue : Json.read? value.text = some value :=
    Json.read?_text (by decide +kernel) rfl rfl
  have hcite : ∀ contents, (cite contents).citeNodes = [cite contents] :=
    fun contents ↦ Json.citeNodes_obj _
  have hnodes : blocks.flatMap Json.citeNodes = [good, bad, cite []] := by
    have hfirst : Json.citeNodes (.obj [("t", .str "Header"),
        ("c", .arr [.num (.int 1), cite [], .arr [good, bad]])]) = [good, bad] := by
      rw [Json.citeNodes_obj]
      change good.citeNodes ++ (bad.citeNodes ++ []) = [good, bad]
      rw [hcite, hcite]
      rfl
    have hsecond : Json.citeNodes (.obj [("t", .str "Header"), ("c", .arr [cite []])])
        = [cite []] := by
      rw [Json.citeNodes_obj]
      change (Json.str "Header").citeNodes ++ ((Json.arr [cite []]).citeNodes ++ []) = [cite []]
      have htag : (Json.str "Header").citeNodes = [] := Json.citeNodes_of_isLeaf (by trivial)
      rw [htag, Json.citeNodes_arr, List.flatMap_singleton, hcite]
      rfl
    rw [List.flatMap_cons, List.flatMap_singleton, hfirst, hsecond]
    rfl
  have hgood : good.ListsCitations := Cite.exists_ofJson_eq_ok_iff.mp ⟨⟨[⟨"a", []⟩], good⟩, rfl⟩
  have hbad : ¬bad.ListsCitations := by
    rw [← Cite.exists_ofJson_eq_ok_iff]
    rintro ⟨_, ⟨⟩⟩
  refine ⟨hnodes, (malformed_cite_never_skipped.2.2.2 _ _ _ hvalue rfl).1 _ _ rfl |>.mpr ?_⟩
  exact ⟨[good], bad, [cite []], hnodes, by simpa using hgood, hbad, rfl⟩

end CitationFilter
