import CitationFilter.Citation.Resolution
import CitationFilter.Proofs.Document.Fitting
import CitationFilter.Proofs.Document.Outline
import CitationFilter.Proofs.Document.RoundTrip
import CitationFilter.Proofs.Json.Bounds
import CitationFilter.Proofs.Json.Legible

/-!
# Reading what was written

What has been read once is read as the same tree again after it has been written, although the
written value need not be the one that was read. A document without metadata gains an empty field
for it, and nests no deeper than the reader allows all the same.
-/

namespace CitationFilter

namespace Node

/-! ## Trees -/

/-- The second list is what the first one is read as when it has been written, and all that is
written are objects. -/
def ReadAgain (nodes nodes' : List Node) : Prop :=
  List.Forall₂ (fun node node' ↦ node.toJson.kind = .object ∧ ofJson node.toJson = .ok node')
    nodes nodes'

theorem ReadAgain.kind {nodes nodes' : List Node} (h : ReadAgain nodes nodes') :
    ∀ node ∈ nodes, node.toJson.kind = .object :=
  ((List.forall₂_and_left _ _).mp h).1

/-- A filled tree is read again as the same tree, filled with what its fillings are read as. -/
def ReadAgainByFilling (node : Node) : Prop :=
  ∀ nodes nodes', ReadAgain nodes nodes' →
    ofJson (node.filled nodes).toJson = .ok (node.filled nodes')

theorem listOfJson_listToJson_listFilled {items : List Json} {list nodes nodes' : List Node}
    (h : List.Forall₂ (fun item node ↦ ofJson item = .ok node ∧ ReadAgainByFilling node) items list)
    (hnodes : ReadAgain nodes nodes') :
    listOfJson (listToJson (listFilled list nodes)) = .ok (listFilled list nodes') := by
  induction h generalizing nodes nodes' with
  | nil => rfl
  | @cons item node _ _ hitem _ ih =>
    have hrest : ReadAgain (nodes.drop node.cites.length) (nodes'.drop node.cites.length) :=
      List.forall₂_drop _ hnodes
    rw [listFilled, listToJson, listOfJson, hitem.2 nodes nodes' hnodes, ih hrest]
    rfl

theorem fieldsOfJson_fieldsToJson_fieldFilled {fields : List (String × Json)}
    {list : List (String × Node)} {nodes nodes' : List Node}
    (h : List.Forall₂ (fun field node ↦ field.1 = node.1 ∧ ofJson field.2 = .ok node.2 ∧
      ReadAgainByFilling node.2) fields list)
    (hnodes : ReadAgain nodes nodes') :
    fieldsOfJson (fieldsToJson (fieldFilled list nodes)) = .ok (fieldFilled list nodes') := by
  induction h generalizing nodes nodes' with
  | nil => rfl
  | @cons field entry _ _ hfield _ ih =>
    obtain ⟨key, node⟩ := entry
    have hrest : ReadAgain (nodes.drop node.cites.length) (nodes'.drop node.cites.length) :=
      List.forall₂_drop _ hnodes
    rw [fieldFilled, fieldsToJson, fieldsOfJson, hfield.2.2 nodes nodes' hnodes, ih hrest]
    rfl

theorem readAgainByFilling {value : Json} {node : Node} (h : ofJson value = .ok node) :
    ReadAgainByFilling node := by
  have hcases : ReadingCases fun _ node ↦ ReadAgainByFilling node := by
    refine ⟨?_, ?_, ?_, ?_, ?_⟩
    · intro fields c hform hcite nodes nodes' hnodes
      cases hnodes with
      | nil =>
        rw [filled, List.headD_nil, toJson, raw_of_ofJson hcite]
        exact (Reads.cite hform hcite).ofJson_eq
      | cons hfirst _ => exact hfirst.2
    · intro fields level attributes inlines list hform hlist nodes nodes' hnodes
      have hwritten : form [("t", .str "Header"),
          ("c", .arr [level, attributes, .arr (listToJson (listFilled list nodes))])]
            = .header level attributes (listToJson (listFilled list nodes)) := rfl
      exact (Reads.header hwritten (listOfJson_listToJson_listFilled hlist hnodes)).ofJson_eq
    · intro fields list hform hlist nodes nodes' hnodes
      -- the written fields look like those that were read, so there is no header among them either
      have halike : Alike fields (fieldsToJson (fieldFilled list nodes)) :=
        alike_fieldFilled (hlist.imp fun _ _ hfield ↦ ⟨hfield.1, hfield.2.1⟩) hnodes.kind
      exact (Reads.object (halike.form_eq_object hform)
        (fieldsOfJson_fieldsToJson_fieldFilled hlist hnodes)).ofJson_eq
    · intro items list hlist nodes nodes' hnodes
      exact (Reads.array (listOfJson_listToJson_listFilled hlist hnodes)).ofJson_eq
    · intro value hleaf nodes nodes' _
      exact (Reads.leaf hleaf).ofJson_eq
  exact hcases.apply node h

/-- Reading a written tree gives the tree back, if it has been read before. -/
theorem ofJson_toJson {value : Json} {node : Node} (h : ofJson value = .ok node) :
    ofJson node.toJson = .ok node := by
  have hnode := readAgainByFilling h [] [] .nil
  rwa [filled_nil] at hnode

theorem listOfJson_listToJson_filled {items : List Json} {list nodes nodes' : List Node}
    (h : listOfJson items = .ok list) (hnodes : ReadAgain nodes nodes') :
    listOfJson (listToJson (listFilled list nodes)) = .ok (listFilled list nodes') := by
  have hlist := forall₂_of_listOfJson (motive := fun _ node ↦ ReadAgainByFilling node) h
    readAgainByFilling
  exact listOfJson_listToJson_listFilled hlist hnodes

theorem listOfJson_listToJson_of_listOfJson {items : List Json} {nodes : List Node}
    (h : listOfJson items = .ok nodes) : listOfJson (listToJson nodes) = .ok nodes := by
  have hlist := listOfJson_listToJson_filled h .nil
  rwa [listFilled_nil] at hlist

end Node

/-! ## Documents -/

namespace Document

/-- The fields of a document as it is written. -/
def written (document : Document) : List (String × Json) :=
  Json.put "blocks" (.arr (Node.listToJson document.blocks))
    (Json.put "meta" (.obj document.metadata.fields) document.frame)

theorem toJson_eq (document : Document) : document.toJson = .obj document.written := rfl

theorem lookup_meta_written (document : Document) :
    document.written.lookup "meta" = some (.obj document.metadata.fields) := by
  rw [written, Json.lookup_put_of_ne (by decide), Json.lookup_put_self]

theorem lookup_blocks_written (document : Document) :
    document.written.lookup "blocks" = some (.arr (Node.listToJson document.blocks)) := by
  rw [written, Json.lookup_put_self]

theorem ofJson_toJson (document : Document) {blocks : List Node}
    (h : Node.listOfJson (Node.listToJson document.blocks) = .ok blocks) :
    ofJson document.toJson = .ok ⟨document.metadata, blocks, document.written⟩ := by
  rw [toJson_eq, ofJson, metadataOf, lookup_meta_written, blocksOf, lookup_blocks_written]
  dsimp only
  rw [h]
  rfl

/-- `ofJson_toJson` with the numbers read anew. -/
theorem ofJson_reread_toJson (document : Document) {blocks : List Node}
    (h : Node.listOfJson (Json.rereadItems (Node.listToJson document.blocks)) = .ok blocks) :
    ofJson document.toJson.reread
      = .ok ⟨⟨Json.rereadFields document.metadata.fields⟩, blocks,
          Json.rereadFields document.written⟩ := by
  rw [toJson_eq, Json.reread, ofJson, metadataOf, Json.lookup_rereadFields, lookup_meta_written,
    Option.map_some, Json.reread, blocksOf, Json.lookup_rereadFields, lookup_blocks_written,
    Option.map_some, Json.reread]
  dsimp only
  rw [h]
  rfl

/-! ## Documents as texts -/

section Fits

open Json (Fits)

variable {wanted : Json.Number → Prop} {n : Nat} {frame : List (String × Json)}
  {document : Document}

theorem fits_metadata {metadata : Metadata} (h : metadataOf frame = .ok metadata)
    (hfits : Fits wanted (n + 2) (.obj frame)) : Fits wanted (n + 1) (.obj metadata.fields) := by
  rw [metadataOf] at h
  split at h
  · cases h
    exact .obj List.nodup_nil (List.forall_mem_nil _)
  · rename_i value hvalue
    split at h
    · rename_i fields hfields
      cases h
      rw [Json.eq_obj_of_asFields hfields] at hvalue
      obtain ⟨m, hm, hmetadata⟩ := hfits.exists_eq_succ_of_lookup hvalue
      cases hm
      exact hmetadata
    · cases h

theorem fits_with_blocks (h : ofJson (.obj frame) = .ok document)
    (hfits : Fits wanted (n + 2) (.obj frame)) {blocks : List Node}
    (hblocks : ∀ block ∈ blocks, Fits wanted n block.toJson) :
    Fits wanted (n + 2) (toJson { document with blocks }) := by
  obtain ⟨hmetadata, -, hframe⟩ := ofJson_eq_ok h
  have hread := fits_metadata hmetadata hfits
  have hwritten : Fits wanted (n + 1) (.arr (Node.listToJson blocks)) := by
    rw [Node.listToJson_eq_map]
    exact .arr (List.forall_mem_map.mpr hblocks)
  cases hfits with
  | obj hkeys hfields =>
    -- every field is one of the two that are put, or one of those that were read
    rw [toJson, hframe]
    refine .obj (Json.nodup_keys_put (Json.nodup_keys_put hkeys _ _) _ _) fun field hfield ↦ ?_
    rcases Json.mem_of_mem_put hfield with rfl | hfield
    · exact hwritten
    rcases Json.mem_of_mem_put hfield with rfl | hfield
    · exact hread
    · exact hfields field hfield

/-- The blocks that were read fit into the object that was read, also when small values have taken
the places of their cite nodes. -/
theorem forall_fits_listFilled_blocks (h : ofJson (.obj frame) = .ok document)
    (hfits : Fits wanted (n + 2) (.obj frame)) {nodes : List Node}
    (hnodes : ∀ r ∈ nodes, Fits wanted 3 r.toJson) :
    ∀ block ∈ Node.listFilled document.blocks nodes, Fits wanted n block.toJson := by
  obtain ⟨items, hitems, hread⟩ := exists_lookup_of_blocksOf (ofJson_eq_ok h).2.1
  obtain ⟨m, hm, harray⟩ := hfits.exists_eq_succ_of_lookup hitems
  cases hm
  obtain ⟨m, hm, hall⟩ := harray.exists_eq_succ_of_arr
  cases hm
  exact Node.forall_fits_listFilled hread hall hnodes

theorem fits_toJson (h : ofJson (.obj frame) = .ok document)
    (hfits : Fits wanted (n + 2) (.obj frame)) : Fits wanted (n + 2) document.toJson := by
  have hblocks := forall_fits_listFilled_blocks h hfits (List.forall_mem_nil _)
  rw [Node.listFilled_nil] at hblocks
  exact fits_with_blocks h hfits hblocks

end Fits

theorem ofText_eq_of_read? {text : String} {value : Json} (h : Json.read? text = some value) :
    ofText text = ofJson value := by
  rw [ofText, h]

/-- A document that was read is read from its text again, unless its binary numbers change. -/
theorem read?_toText {text : String} {document : Document} (h : ofText text = .ok document)
    (hfloats : ∀ x, .num (.float x) ∈ document.toJson.tokens →
      Json.Number.ofChars? (Json.Number.float x).chars = some (.float x)) :
    Json.read? document.toText = some document.toJson := by
  obtain ⟨frame, hframe, hdocument⟩ := exists_read_of_ofText h
  have hread : Json.Fits Json.Number.IsRead Json.Reader.deepest document.toJson :=
    fits_toJson hdocument (Json.fits_of_read? hframe)
  have hlegible := hread.imp fun _ ↦ Json.Number.IsRead.legible
  rw [toText, hlegible.read?_text, hread.reread_eq_iff.mpr hfloats]

/-- **Writing and reading.** Every tree that was read is read again from what it is written as. So a
document that was read and written is accepted, if the binary numbers in it are read as themselves:
the same metadata and blocks are read, and with them the same occurrences, the same heading for the
bibliography and the same uncited items, and the document is written as the same text again. -/
theorem reading_inverts_writing :
    (∀ (value : Json) (node : Node), Node.ofJson value = .ok node →
      Node.ofJson node.toJson = .ok node) ∧
    ∀ (text : String) (document : Document), ofText text = .ok document →
      (∀ x, .num (.float x) ∈ document.toJson.tokens →
        Json.Number.ofChars? (Json.Number.float x).chars = some (.float x)) →
      ∃ again, ofText document.toText = .ok again ∧
        again.metadata = document.metadata ∧ again.blocks = document.blocks ∧
        Occurrence.extract again.blocks = Occurrence.extract document.blocks ∧
        Bibliography.headingIndex? again.blocks = Bibliography.headingIndex? document.blocks ∧
        again.metadata.citationIds Resolution.uncitedField
          = document.metadata.citationIds Resolution.uncitedField ∧
        again.toText = document.toText := by
  refine ⟨fun value node ↦ Node.ofJson_toJson, fun text document h hfloats ↦ ?_⟩
  obtain ⟨frame, -, hdocument⟩ := exists_read_of_ofText h
  obtain ⟨items, -, hitems⟩ := exists_lookup_of_blocksOf (ofJson_eq_ok hdocument).2.1
  have hagain : ofText document.toText
      = .ok ⟨document.metadata, document.blocks, document.written⟩ := by
    rw [ofText_eq_of_read? (read?_toText h hfloats)]
    exact ofJson_toJson document (Node.listOfJson_listToJson_of_listOfJson hitems)
  refine ⟨_, hagain, rfl, rfl, rfl, rfl, rfl, ?_⟩
  -- the two fields are there already, with the values that they get
  rw [toText, toText, toJson_eq, toJson_eq, written, Json.put_of_lookup_eq_some
    (lookup_meta_written document), Json.put_of_lookup_eq_some (lookup_blocks_written document)]

/-- A header inside an object that is only tagged as one, with a binary number beside them. -/
theorem reading_inverts_writing_of_nested :
    let value : Json := .obj [("meta", .obj [("x", .num (.float ⟨false, 4503599627370496, -53⟩))]),
      ("blocks", .arr [.obj [("t", .str "Header"), ("c", .arr [.obj [("t", .str "Header"),
        ("c", .arr [.num (.int (-1)), .null, .arr []])]])]])]
    ∃ document again, ofText value.text = .ok document ∧
      ofText document.toText = .ok again ∧ again.blocks = document.blocks ∧
      again.toText = document.toText := by
  intro value
  have hvalue : Json.read? value.text = some value :=
    Json.read?_text (by decide +kernel) rfl rfl
  have hdocument : ofText value.text = ofJson value := ofText_eq_of_read? hvalue
  have hfloats : ∀ x, .num (.float x) ∈ value.tokens →
      Json.Number.ofChars? (Json.Number.float x).chars = some (.float x) := by
    intro x hx
    have hhalf : x = ⟨false, 4503599627370496, -53⟩ := by
      simpa [value, Json.tokens, Json.fieldTokens, Json.itemTokens] using hx
    rw [hhalf]
    decide +kernel
  obtain ⟨again, hagain, -, hblocks, -, -, -, htext⟩ :=
    reading_inverts_writing.2 value.text _ hdocument hfloats
  exact ⟨_, again, hdocument, hagain, hblocks, htext⟩

end Document

end CitationFilter
