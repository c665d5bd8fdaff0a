import CitationFilter.Proofs.Document.Pieces
import CitationFilter.Proofs.Document.Visited

/-!
# The wrapping of metadata makes no difference

A file name in the metadata may be a plain text, or inlines with spaces and breaks between the
words, some of them emphasised, or a paragraph of such inlines; and it may be the first element of a
list. `Json.Wraps` says that a value is some words in one of these ways. What is read is the same
every time: the words, with single spaces between them.

Reading a value as a tree fails only at a malformed cite node, so of the parts of the value that
have no share in the text all that has to be known is that there is none in them, which is
`Json.WellCited`.
-/

namespace CitationFilter

namespace Json

/-- There is no malformed cite node in the value. -/
def WellCited (value : Json) : Prop := ∀ raw ∈ value.citeNodes, raw.ListsCitations

/-- The value is an element with this tag and no malformed cite nodes. -/
def IsTagged (value : Json) (tag : String) : Prop :=
  ∃ fields, value = .obj fields ∧ fields.lookup "t" = some (.str tag) ∧
    ∀ field ∈ fields, field.2.WellCited

/-- The value is an element with this tag and these contents. In its other fields there are no
malformed cite nodes. -/
def IsElement (value : Json) (tag : String) (contents : Json) : Prop :=
  ∃ fields, value = .obj fields ∧ fields.lookup "t" = some (.str tag) ∧
    fields.lookup "c" = some contents ∧
    ∀ field ∈ fields, field = ("c", contents) ∨ field.2.WellCited

/-- The inlines show these pieces of text: words, single spaces for spaces and breaks, and what is
shown by the inlines in an element of inlines, such as emphasised ones. -/
inductive Inlines : List Json → List String → Prop
  | nil : Inlines [] []
  | word {item : Json} {rest : List Json} {w : String} {pieces : List String} :
      item.IsElement "Str" (.str w) → Inlines rest pieces → Inlines (item :: rest) (w :: pieces)
  | space {item : Json} {rest : List Json} {tag : String} {pieces : List String} :
      item.IsTagged tag → tag ∈ Node.spaceTags → Inlines rest pieces →
      Inlines (item :: rest) (" " :: pieces)
  | group {item : Json} {rest inner : List Json} {tag : String} {innerPieces pieces : List String} :
      item.IsElement tag (.arr inner) → tag ≠ "Cite" → tag ∉ Node.spaceTags →
      Inlines inner innerPieces → Inlines rest pieces →
      Inlines (item :: rest) (innerPieces ++ pieces)

/-- The value is the words with spaces between them: as a text, as inlines, or as inlines in a
single block. -/
inductive ShowsWords (value : Json) (words : List String) : Prop
  | text : value.IsElement "MetaString" (.str (" ".intercalate words)) → ShowsWords value words
  | inlines {items : List Json} : value.IsElement "MetaInlines" (.arr items) →
      Inlines items (words.intersperse " ") → ShowsWords value words
  | block {block : Json} {tag : String} {items : List Json} :
      value.IsElement "MetaBlocks" (.arr [block]) → block.IsElement tag (.arr items) →
      tag ∈ ["Plain", "Para"] → Inlines items (words.intersperse " ") → ShowsWords value words

/-- The value is the other one, or it is a list whose first element begins with the other one. In
the rest of a list there are no malformed cite nodes. -/
inductive BeginsWith : Json → Json → Prop
  | refl (value : Json) : BeginsWith value value
  | first {value first inner : Json} {rest : List Json} :
      value.IsElement "MetaList" (.arr (first :: rest)) → (∀ other ∈ rest, other.WellCited) →
      BeginsWith first inner → BeginsWith value inner

/-- The value is the words, wrapped in any way. -/
def Wraps (value : Json) (words : List String) : Prop :=
  ∃ inner, value.BeginsWith inner ∧ inner.ShowsWords words

/-! ## Values without malformed cite nodes -/

variable {value : Json} {items : List Json} {tag : String}

theorem exists_ofJson_iff : (∃ node, Node.ofJson value = .ok node) ↔ value.WellCited := by
  have hfault : (∃ fault, Node.ofJson value = .error fault) ↔ ¬value.WellCited := by
    simp only [Node.ofJson_eq_error_iff, Cite.exists_firstFault_iff, WellCited, not_forall,
      exists_prop]
  cases hread : Node.ofJson value with
  | error fault => exact iff_of_false (by rintro ⟨_, ⟨⟩⟩) (hfault.mp ⟨fault, hread⟩)
  | ok node =>
    refine iff_of_true ⟨node, rfl⟩ (not_not.mp (mt hfault.mpr ?_))
    rintro ⟨fault, herror⟩
    cases hread.symm.trans herror

theorem wellCited_arr : (Json.arr items).WellCited ↔ ∀ item ∈ items, item.WellCited := by
  rw [WellCited, citeNodes_arr]
  exact List.forall_mem_flatMap

theorem wellCited_obj {fields : List (String × Json)} (hform : Node.form fields = .object) :
    (Json.obj fields).WellCited ↔ ∀ field ∈ fields, field.2.WellCited := by
  rw [WellCited, citeNodes_obj, hform]
  dsimp only
  rw [List.forall_mem_flatMap, List.forall_mem_map]
  rfl

theorem exists_listOfJson (h : ∀ item ∈ items, item.WellCited) :
    ∃ nodes, Node.listOfJson items = .ok nodes := by
  obtain ⟨node, hnode⟩ := exists_ofJson_iff.mpr (wellCited_arr.mpr h)
  rw [Node.ofJson] at hnode
  obtain ⟨nodes, hnodes, -⟩ := Except.map_eq_ok.mp hnode
  exact ⟨nodes, hnodes⟩

theorem wellCited_of_isLeaf (h : value.IsLeaf) : value.WellCited := by
  rw [WellCited, citeNodes_of_isLeaf h]
  exact List.forall_mem_nil _

/-! ## Elements -/

section Element

variable {fields : List (String × Json)} {contents : Json} {node : Node} {nodes : List Node}

theorem exists_lookup_of_fieldsOfJson {fieldNodes : List (String × Node)}
    (h : Node.fieldsOfJson fields = .ok fieldNodes) {key : String}
    (hvalue : fields.lookup key = some value) :
    ∃ node, fieldNodes.lookup key = some node ∧ Node.ofJson value = .ok node := by
  have hrel := rel_lookup (r := fun value node ↦ Node.ofJson value = .ok node)
    (Node.fieldsOfJson_eq_ok_iff.mp h) key
  rw [hvalue] at hrel
  generalize fieldNodes.lookup key = found at hrel
  cases hrel with
  | some hnode => exact ⟨_, rfl, hnode⟩

theorem form_eq_object (htag : fields.lookup "t" = some (.str tag)) (hcite : tag ≠ "Cite")
    (hheader : tag = "Header" → Node.contents? fields = none) : Node.form fields = .object := by
  cases hform : Node.form fields with
  | cite =>
    rw [Node.form_eq_cite_iff, htag] at hform
    cases hform
    exact (hcite rfl).elim
  | header level attributes inlines =>
    obtain ⟨hshape, hcontents⟩ := Node.form_eq_header hform
    rw [Node.shape_eq_header_iff, htag] at hshape
    cases hshape
    cases (hheader rfl).symm.trans hcontents
  | object => rfl

theorem exists_object (htag : fields.lookup "t" = some (.str tag)) (hcite : tag ≠ "Cite")
    (hheader : tag = "Header" → Node.contents? fields = none)
    (hfields : ∀ field ∈ fields, field.2.WellCited) :
    ∃ fieldNodes, Node.ofJson (.obj fields) = .ok (.object fieldNodes) ∧
      Node.tagOf? fieldNodes = some tag ∧ Node.fieldsOfJson fields = .ok fieldNodes := by
  have hform := form_eq_object htag hcite hheader
  obtain ⟨node, hnode⟩ := exists_ofJson_iff.mpr ((wellCited_obj hform).mpr hfields)
  rw [Node.ofJson_obj, hform] at hnode
  obtain ⟨fieldNodes, hfieldNodes, -⟩ := Except.map_eq_ok.mp hnode
  obtain ⟨tagNode, htagNode, hread⟩ := exists_lookup_of_fieldsOfJson hfieldNodes htag
  cases hread
  exact ⟨fieldNodes, (Node.Reads.object hform hfieldNodes).ofJson_eq,
    Node.tagOf?_eq_some_iff.mpr htagNode, hfieldNodes⟩

theorem IsElement.exists_node (h : value.IsElement tag contents) (hcite : tag ≠ "Cite")
    (hheader : tag = "Header" → Node.contentsOf? contents = none)
    (hcontents : Node.ofJson contents = .ok node) :
    ∃ fieldNodes, Node.ofJson value = .ok (.object fieldNodes) ∧
      Node.tagOf? fieldNodes = some tag ∧ fieldNodes.lookup "c" = some node := by
  obtain ⟨fields, rfl, htag, hlookup, hfields⟩ := h
  have hwell : contents.WellCited := exists_ofJson_iff.mp ⟨node, hcontents⟩
  have hall : ∀ field ∈ fields, field.2.WellCited := by
    intro field hfield
    rcases hfields field hfield with rfl | hfield
    · exact hwell
    · exact hfield
  have hnone : tag = "Header" → Node.contents? fields = none := by
    intro heq
    rw [Node.contents?, hlookup]
    exact hheader heq
  obtain ⟨fieldNodes, hvalue, htag, hfieldNodes⟩ := exists_object htag hcite hnone hall
  obtain ⟨found, hfound, hread⟩ := exists_lookup_of_fieldsOfJson hfieldNodes hlookup
  cases hread.symm.trans hcontents
  exact ⟨fieldNodes, hvalue, htag, hfound⟩

theorem IsElement.exists_lists (h : value.IsElement "MetaList" (.arr items))
    (hitems : Node.listOfJson items = .ok nodes) :
    ∃ node, Node.ofJson value = .ok node ∧ node.Lists nodes := by
  obtain ⟨fieldNodes, hvalue, htag, hcontents⟩ := h.exists_node (by decide)
    (fun heq ↦ absurd heq (by decide)) (Node.Reads.array hitems).ofJson_eq
  exact ⟨.object fieldNodes, hvalue, htag, hcontents⟩

/-! ## Texts -/

/-- The value is read as an element with this tag and this text. -/
def HasText (value : Json) (tag s : String) : Prop :=
  ∃ node, Node.ofJson value = .ok node ∧ node.tag? = some tag ∧ node.text = s

/-- The values are read as nodes with this text in all. -/
def HaveText (items : List Json) (s : String) : Prop :=
  ∃ nodes, Node.listOfJson items = .ok nodes ∧ Node.listText nodes = s

variable {s : String}

theorem haveText_nil : HaveText [] "" := ⟨[], rfl, rfl⟩

theorem HasText.cons {rest : List Json} {t : String} (h : value.HasText tag s)
    (hrest : HaveText rest t) : HaveText (value :: rest) (s ++ t) := by
  obtain ⟨node, hnode, -, rfl⟩ := h
  obtain ⟨nodes, hnodes, rfl⟩ := hrest
  exact ⟨node :: nodes, Node.listOfJson_cons hnode hnodes, rfl⟩

theorem ordinary_tags :
    ∀ tag ∈ Node.textTags ++ Node.spaceTags, tag ≠ "Cite" ∧ tag ≠ "Header" := by
  decide

theorem IsElement.hasText_of_str (h : value.IsElement tag (.str s)) (htag : tag ∈ Node.textTags) :
    value.HasText tag s := by
  have hneither := ordinary_tags tag (List.mem_append_left _ htag)
  have hleaf : Node.ofJson (.str s) = .ok (.leaf (.str s)) := rfl
  obtain ⟨fieldNodes, hvalue, hread, hcontents⟩ :=
    h.exists_node hneither.1 (fun heq ↦ absurd heq hneither.2) hleaf
  exact ⟨.object fieldNodes, hvalue, hread,
    Node.text_of_shows (.word (Node.tagOf?_eq_some_iff.mp hread) htag hcontents)⟩

theorem IsTagged.hasText (h : value.IsTagged tag) (htag : tag ∈ Node.spaceTags) :
    value.HasText tag " " := by
  obtain ⟨fields, rfl, hlookup, hfields⟩ := h
  have hneither := ordinary_tags tag (List.mem_append_right _ htag)
  obtain ⟨fieldNodes, hvalue, hread, -⟩ := exists_object hlookup hneither.1
    (fun heq ↦ absurd heq hneither.2) hfields
  exact ⟨.object fieldNodes, hvalue, hread,
    Node.text_of_shows (.space (Node.tagOf?_eq_some_iff.mp hread) htag)⟩

theorem IsElement.hasText (h : value.IsElement tag (.arr items)) (hcite : tag ≠ "Cite")
    (hspace : tag ∉ Node.spaceTags) (hheader : Node.contentsOf? (.arr items) = none)
    (hitems : HaveText items s) : value.HasText tag s := by
  obtain ⟨nodes, hnodes, rfl⟩ := hitems
  obtain ⟨fieldNodes, hvalue, htag, hcontents⟩ := h.exists_node hcite (fun _ ↦ hheader)
    (Node.Reads.array hnodes).ofJson_eq
  have hnot : ∀ own, ¬Node.Shows fieldNodes own := by
    refine Node.not_shows htag hspace fun _ s hs ↦ ?_
    cases hcontents.symm.trans hs
  refine ⟨.object fieldNodes, hvalue, htag, ?_⟩
  rw [Node.text_of_not_shows hnot, Node.contentText_eq, hcontents]
  rfl

end Element

/-! ## Inlines -/

section Inlines

variable {pieces words : List String}

theorem Inlines.exists_fields (h : Inlines items pieces) :
    ∀ item ∈ items, ∃ fields, item = .obj fields := by
  induction h with
  | nil => exact List.forall_mem_nil _
  | word hword _ ih => exact List.forall_mem_cons.mpr ⟨hword.imp fun _ h ↦ h.1, ih⟩
  | space hspace _ _ ih => exact List.forall_mem_cons.mpr ⟨hspace.imp fun _ h ↦ h.1, ih⟩
  | group hgroup _ _ _ _ _ ih => exact List.forall_mem_cons.mpr ⟨hgroup.imp fun _ h ↦ h.1, ih⟩

/-- Inlines are not the contents of a header, of which the last one is an array. -/
theorem Inlines.contentsOf?_eq_none (h : Inlines items pieces) :
    Node.contentsOf? (.arr items) = none := by
  rw [Node.contentsOf?.eq_def]
  split
  · rename_i inlines hitems
    cases hitems
    obtain ⟨fields, ⟨⟩⟩ := h.exists_fields (.arr inlines) (by simp)
  · rfl

/-- **Inlines show their pieces, one after the other.** -/
theorem Inlines.haveText (h : Inlines items pieces) : HaveText items (String.join pieces) := by
  induction h with
  | nil => exact haveText_nil
  | word hword _ ih =>
    rw [String.join_cons]
    exact (hword.hasText_of_str (by decide)).cons ih
  | space hspace hmem _ ih =>
    rw [String.join_cons]
    exact (hspace.hasText hmem).cons ih
  | group hgroup hcite hspace hinner _ ihInner ih =>
    -- the element has the text of the inlines inside, which come before the others
    rw [String.join_append]
    exact (hgroup.hasText hcite hspace hinner.contentsOf?_eq_none ihInner).cons ih

theorem join_intersperse (separator : String) (words : List String) :
    String.join (words.intersperse separator) = separator.intercalate words := by
  induction words with
  | nil => rfl
  | cons word rest ih =>
    cases rest with
    | nil => simp
    | cons next rest =>
      rw [List.intersperse_cons_cons, String.join_cons, String.join_cons, ih,
        String.intercalate_cons_cons, String.append_assoc]

theorem intercalate_ne_empty {separator : String} (hwords : words ≠ [])
    (h : ∀ word ∈ words, word ≠ "") : separator.intercalate words ≠ "" := by
  obtain ⟨word, rest, rfl⟩ := List.exists_cons_of_ne_nil hwords
  have hword := h word List.mem_cons_self
  cases rest with
  | nil => rwa [String.intercalate_singleton]
  | cons next rest =>
    rw [String.intercalate_cons_cons, String.append_assoc, ne_eq, String.append_eq_empty_iff]
    exact fun hboth ↦ hword hboth.1

/-! ## Metadata values -/

/-- Inlines inside an element show the words that they are made of. -/
theorem IsElement.hasText_of_words (h : value.IsElement tag (.arr items)) (hcite : tag ≠ "Cite")
    (hspace : tag ∉ Node.spaceTags) (hinlines : Inlines items (words.intersperse " ")) :
    value.HasText tag (" ".intercalate words) := by
  have hitems := hinlines.haveText
  rw [join_intersperse] at hitems
  exact h.hasText hcite hspace hinlines.contentsOf?_eq_none hitems

theorem block_tags : ∀ tag ∈ ["Plain", "Para"], tag ≠ "Cite" ∧ tag ∉ Node.spaceTags := by
  decide

/-- A wrapping shows the words, and it is not a list. -/
theorem ShowsWords.hasText (h : value.ShowsWords words) :
    ∃ tag, tag ≠ "MetaList" ∧ value.HasText tag (" ".intercalate words) := by
  cases h with
  | text h => exact ⟨"MetaString", by decide, h.hasText_of_str (by decide)⟩
  | inlines h hinlines =>
    exact ⟨"MetaInlines", by decide, h.hasText_of_words (by decide) (by decide) hinlines⟩
  | block h hblock hmem hinlines =>
    obtain ⟨hcite, hspace⟩ := block_tags _ hmem
    have hblocks := (hblock.hasText_of_words hcite hspace hinlines).cons haveText_nil
    rw [String.append_empty] at hblocks
    exact ⟨"MetaBlocks", by decide, h.hasText (by decide) (by decide) rfl hblocks⟩

/-- The search for the text goes on from the value to the one that it begins with. -/
theorem BeginsWith.exists_node {inner : Json} (h : value.BeginsWith inner) {innerNode : Node}
    (hinner : Node.ofJson inner = .ok innerNode) :
    ∃ node, Node.ofJson value = .ok node ∧
      ∀ found, node.Leads found ↔ innerNode.Leads found := by
  induction h with
  | refl value => exact ⟨innerNode, hinner, fun _ ↦ Iff.rfl⟩
  | first hlist hrest _ ih =>
    obtain ⟨firstNode, hfirst, hleads⟩ := ih hinner
    obtain ⟨restNodes, hrestNodes⟩ := exists_listOfJson hrest
    obtain ⟨node, hnode, hlists⟩ := hlist.exists_lists (Node.listOfJson_cons hfirst hrestNodes)
    exact ⟨node, hnode, fun found ↦ hlists.leads_iff.trans (hleads found)⟩

end Inlines

end Json

namespace Metadata

variable {metadata : Metadata} {field : String} {value : Json} {node : Node}

theorem text_eq (hvalue : metadata.fields.lookup field = some value)
    (hnode : Node.ofJson value = .ok node) :
    metadata.text field =
      if valueText node = "" then .error (.missingMetadata field) else .ok (valueText node) := by
  rw [text, hvalue]
  dsimp only
  rw [hnode]

theorem text_eq_missing_iff :
    metadata.text field = .error (.missingMetadata field) ↔
      metadata.fields.lookup field = none ∨
        ∃ value node, metadata.fields.lookup field = some value ∧ Node.ofJson value = .ok node ∧
          valueText node = "" := by
  cases hvalue : metadata.fields.lookup field with
  | none => simp [text, hvalue]
  | some value =>
    cases hnode : Node.ofJson value with
    | error fault => simp [text, hvalue, hnode]
    | ok node =>
      rw [text_eq hvalue hnode]
      by_cases hempty : valueText node = ""
      · simp [hempty, hnode]
      · simp [hempty, hnode]

theorem text_of_wraps {words : List String} (hvalue : metadata.fields.lookup field = some value)
    (h : value.Wraps words) :
    metadata.text field =
      if " ".intercalate words = "" then .error (.missingMetadata field)
      else .ok (" ".intercalate words) := by
  obtain ⟨inner, hbegins, hshows⟩ := h
  obtain ⟨tag, hlist, innerNode, hinner, htag, htext⟩ := hshows.hasText
  obtain ⟨node, hnode, hleads⟩ := hbegins.exists_node hinner
  have hfound : node.Leads innerNode :=
    (hleads innerNode).mpr (.here (Node.not_lists_of_tag? htag hlist))
  rw [text_eq hvalue hnode, valueText_of_leads hfound, htext]

/-- **The wrapping of metadata makes no difference.** Words, at least one and none of them empty,
are read with single spaces between them, however they are wrapped. If some of them are empty, too,
the field is reported missing exactly if there is no text left.

Whatever the value is, the field is reported missing exactly if it is not there, or if the value can
be read and all pieces of text are empty in the place where the text is looked for. There is no such
place if one comes to an empty list, however deep in other lists. -/
theorem wrapping_does_not_matter :
    (∀ (metadata : Metadata) (field : String) (value : Json) (words : List String),
      metadata.fields.lookup field = some value → value.Wraps words →
      (words ≠ [] → (∀ word ∈ words, word ≠ "") →
        metadata.text field = .ok (" ".intercalate words)) ∧
      (metadata.text field = .error (.missingMetadata field) ↔ " ".intercalate words = "")) ∧
    (∀ (metadata : Metadata) (field : String),
      metadata.text field = .error (.missingMetadata field) ↔
        metadata.fields.lookup field = none ∨
          ∃ value node, metadata.fields.lookup field = some value ∧ Node.ofJson value = .ok node ∧
            ∀ found, node.Leads found → ∀ piece, found.HasPiece piece → piece = "") ∧
    ∀ (metadata : Metadata) (field : String) (value inner : Json),
      metadata.fields.lookup field = some value → value.BeginsWith inner →
      inner.IsElement "MetaList" (.arr []) →
      metadata.text field = .error (.missingMetadata field) := by
  refine ⟨fun metadata field value words hvalue h ↦ ?_, fun metadata field ↦ ?_,
    fun metadata field value inner hvalue hbegins hinner ↦ ?_⟩
  · rw [text_of_wraps hvalue h]
    constructor
    · intro hwords hne
      rw [if_neg (Json.intercalate_ne_empty hwords hne)]
    · split
      · rename_i hempty
        exact iff_of_true rfl hempty
      · rename_i hne
        exact iff_of_false (by rintro ⟨⟩) hne
  · simp only [text_eq_missing_iff, valueText_eq_empty_iff]
  · have hnil : Node.listOfJson [] = .ok [] := rfl
    obtain ⟨innerNode, hread, hlists⟩ := hinner.exists_lists hnil
    obtain ⟨node, hnode, hleads⟩ := hbegins.exists_node hread
    refine text_eq_missing_iff.mpr (.inr ⟨value, node, hvalue, hnode, ?_⟩)
    rw [valueText_eq_empty_iff]
    exact fun found hfound ↦ (hlists.not_leads ((hleads found).mp hfound)).elim

/-- The first style of a list of lists is a paragraph with a line break and an emphasised word; the
libraries are a list of an empty list. -/
theorem wrapping_does_not_matter_sample :
    let element (tag : String) (contents : List Json) : Json :=
      .obj [("t", .str tag), ("c", .arr contents)]
    let word (w : String) : Json := .obj [("c", .str w), ("t", .str "Str")]
    let space : Json := .obj [("t", .str "SoftBreak")]
    let styles : List Json :=
      [element "MetaList" [element "MetaBlocks" [element "Para"
        [word "my", element "Emph" [space, element "Strong" [word "style.csl"]]]]],
        word "other.csl"]
    let metadata : Metadata :=
      ⟨[("csl", element "MetaList" styles),
        ("bibliography", element "MetaList" [element "MetaList" []])]⟩
    metadata.text "csl" = .ok "my style.csl" ∧
      metadata.text "bibliography" = .error (.missingMetadata "bibliography") := by
  intro element word space styles metadata
  have hleaf : ∀ s, (Json.str s).WellCited := fun s ↦ Json.wellCited_of_isLeaf trivial
  have helement : ∀ tag contents, (element tag contents).IsElement tag (.arr contents) :=
    fun tag contents ↦ ⟨_, rfl, rfl, rfl, by simp [hleaf]⟩
  have hword : ∀ w, (word w).IsElement "Str" (.str w) :=
    fun w ↦ ⟨_, rfl, rfl, rfl, by simp [hleaf]⟩
  have hspace : space.IsTagged "SoftBreak" := ⟨_, rfl, rfl, by simp [hleaf]⟩
  constructor
  · have hstrong : Json.Inlines [element "Strong" [word "style.csl"]] ["style.csl"] :=
      .group (helement _ _) (by decide) (by decide) (.word (hword _) .nil) .nil
    have hemph : Json.Inlines [element "Emph" [space, element "Strong" [word "style.csl"]]]
        [" ", "style.csl"] :=
      .group (helement _ _) (by decide) (by decide) (.space hspace (by decide) hstrong) .nil
    have hshows : (element "MetaBlocks" [element "Para" [word "my",
        element "Emph" [space, element "Strong" [word "style.csl"]]]]).ShowsWords
          ["my", "style.csl"] :=
      .block (helement _ _) (helement _ _) (by decide) (.word (hword _) hemph)
    have hbegins : (element "MetaList" styles).BeginsWith _ :=
      .first (helement _ _) (by simpa using Json.exists_ofJson_iff.mp ⟨_, rfl⟩)
        (.first (helement _ _) (by simp) (.refl _))
    exact (wrapping_does_not_matter.1 metadata "csl" _ ["my", "style.csl"] rfl
      ⟨_, hbegins, hshows⟩).1 (by simp) (by simp)
  · exact wrapping_does_not_matter.2.2 metadata "bibliography" _ _ rfl
      (.first (helement _ _) (by simp) (.refl _)) (helement _ _)

end Metadata

end CitationFilter
