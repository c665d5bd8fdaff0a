import CitationFilter.Document.Metadata
import CitationFilter.Proofs.Document.Text
import CitationFilter.Proofs.Json.Fields

/-!
# Where the text of a metadata value comes from

The text of a node is put together from pieces, and a piece is either the own text of an element or
the single space that a space or a break stands for. `Node.HasPiece` says which pieces there are,
wherever in the node they stand. A node is without text exactly if all its pieces are empty.

For a metadata value one looks for the text in another place: in the first element of a list, as
long as that is a list itself. `Node.Leads` goes from a value to the node where the search ends. It
ends nowhere if one comes to a list without elements, and then there is no text.
-/

namespace CitationFilter

namespace Node

/-! ## Pieces -/

/-- The tags of the elements that may be shown as they are. -/
def textTags : List String := ["Str", "MetaString"]

/-- The tags of the elements that are shown as a single space. -/
def spaceTags : List String := ["Space", "SoftBreak", "LineBreak"]

/-- The object with these fields shows the text all by itself. -/
inductive Shows (fields : List (String × Node)) : String → Prop
  | word {tag s : String} : fields.lookup "t" = some (.leaf (.str tag)) →
      tag ∈ textTags → fields.lookup "c" = some (.leaf (.str s)) → Shows fields s
  | space {tag : String} : fields.lookup "t" = some (.leaf (.str tag)) → tag ∈ spaceTags →
      Shows fields " "

/-- The text is a piece of the node. Of an object that shows no text by itself, the pieces are those
of its contents; nothing is looked for in a cite node, or in other fields. -/
inductive HasPiece : Node → String → Prop
  | own {fields : List (String × Node)} {s : String} : Shows fields s → HasPiece (.object fields) s
  | contents {fields : List (String × Node)} {node : Node} {s : String} :
      (∀ own, ¬Shows fields own) → fields.lookup "c" = some node → HasPiece node s →
      HasPiece (.object fields) s
  | element {items : List Node} {node : Node} {s : String} : node ∈ items → HasPiece node s →
      HasPiece (.array items) s
  | inline {level attributes : Json} {inlines : List Node} {node : Node} {s : String} :
      node ∈ inlines → HasPiece node s → HasPiece (.header level attributes inlines) s

variable {fields : List (String × Node)} {node : Node} {s : String}

theorem isTextTag_iff {tag : String} : isTextTag tag = true ↔ tag ∈ textTags := by
  simp [isTextTag, textTags]

theorem isSpaceTag_iff {tag : String} : isSpaceTag tag = true ↔ tag ∈ spaceTags := by
  simp [isSpaceTag, spaceTags, or_assoc]

theorem not_mem_textTags : ∀ {tag : String}, tag ∈ spaceTags → tag ∉ textTags := by
  decide

theorem tagOf?_eq_some_iff {tag : String} :
    tagOf? fields = some tag ↔ fields.lookup "t" = some (.leaf (.str tag)) := by
  rw [tagOf?_eq, leafText?_eq_some_iff]

theorem ownText?_eq_some_iff : ownText? fields = some s ↔ Shows fields s := by
  rw [ownText?_eq]
  constructor
  · intro h
    cases htag : tagOf? fields with
    | none =>
      rw [htag] at h
      cases h
    | some tag =>
      rw [htag] at h
      dsimp only at h
      split at h
      · rename_i htext
        exact .word (tagOf?_eq_some_iff.mp htag) (isTextTag_iff.mp htext)
          (leafText?_eq_some_iff.mp h)
      · split at h
        · rename_i hspace
          cases h
          exact .space (tagOf?_eq_some_iff.mp htag) (isSpaceTag_iff.mp hspace)
        · cases h
  · intro h
    cases h with
    | word htag htext hs =>
      rw [tagOf?_eq_some_iff.mpr htag]
      dsimp only
      rw [if_pos (isTextTag_iff.mpr htext), leafText?_eq_some_iff.mpr hs]
    | @space tag htag hspace =>
      rw [tagOf?_eq_some_iff.mpr htag]
      dsimp only
      rw [if_neg (mt isTextTag_iff.mp (not_mem_textTags hspace)),
        if_pos (isSpaceTag_iff.mpr hspace)]

/-! ## The text of an object -/

theorem text_of_shows (h : Shows fields s) : (Node.object fields).text = s := by
  rw [text, ownText?_eq_some_iff.mpr h]

theorem text_of_not_shows (h : ∀ own, ¬Shows fields own) :
    (Node.object fields).text = contentText fields := by
  have hown : ownText? fields = none :=
    Option.eq_none_iff_forall_ne_some.mpr fun own hsome ↦ h own (ownText?_eq_some_iff.mp hsome)
  rw [text, hown]

/-- An element shows nothing by itself if it is not a space and its contents are not shown as they
are. -/
theorem not_shows {tag : String} (htag : tagOf? fields = some tag) (hspace : tag ∉ spaceTags)
    (htext : tag ∈ textTags → ∀ s, fields.lookup "c" ≠ some (.leaf (.str s))) (own : String) :
    ¬Shows fields own := by
  rw [tagOf?_eq_some_iff] at htag
  intro hown
  cases hown with
  | word htag' hmem hcontents =>
    cases htag.symm.trans htag'
    exact htext hmem own hcontents
  | space htag' hmem =>
    cases htag.symm.trans htag'
    exact hspace hmem

theorem contentText_eq (fields : List (String × Node)) :
    contentText fields = ((fields.lookup "c").map text).getD "" := by
  induction fields with
  | nil => rfl
  | cons field rest ih =>
    obtain ⟨key, node⟩ := field
    rw [contentText, Json.lookup_cons_eq_ite, ih]
    split <;> rfl

/-! ## Nodes without text -/

theorem listText_eq_empty_iff {items : List Node} :
    listText items = "" ↔ ∀ node ∈ items, node.text = "" := by
  induction items with
  | nil => simp [listText]
  | cons node rest ih => rw [listText, String.append_eq_empty_iff, ih, List.forall_mem_cons]

/-- Without text in the parts there is none in the whole. -/
theorem text_object_eq_empty_iff :
    (Node.object fields).text = "" ↔
      (∀ s, Shows fields s → s = "") ∧
        ((∀ s, ¬Shows fields s) → ∀ node, fields.lookup "c" = some node → node.text = "") := by
  by_cases h : ∃ s, Shows fields s
  · obtain ⟨s, hs⟩ := h
    have hunique : ∀ s', Shows fields s' → s' = s := fun s' hs' ↦
      Option.some.inj ((ownText?_eq_some_iff.mpr hs').symm.trans (ownText?_eq_some_iff.mpr hs))
    rw [text_of_shows hs]
    constructor
    · rintro rfl
      exact ⟨hunique, fun hnone ↦ (hnone _ hs).elim⟩
    · exact fun hempty ↦ hempty.1 s hs
  · have hnone : ∀ s, ¬Shows fields s := not_exists.mp h
    rw [text_of_not_shows hnone, contentText_eq]
    constructor
    · intro htext
      refine ⟨fun s hs ↦ (hnone s hs).elim, fun _ node hnode ↦ ?_⟩
      rw [hnode] at htext
      exact htext
    · rintro ⟨-, hcontents⟩
      cases hnode : fields.lookup "c" with
      | none => rfl
      | some node => exact hcontents hnone node hnode

theorem sizeOf_lt_of_lookup {key : String} (h : fields.lookup key = some node) :
    sizeOf node < sizeOf (Node.object fields) := by
  have hfield := List.sizeOf_lt_of_mem (Json.mem_of_lookup h)
  simp only [Prod.mk.sizeOf_spec, Node.object.sizeOf_spec] at hfield ⊢
  omega

/-- **A node is without text exactly if all its pieces are empty.** -/
theorem text_eq_empty_iff (node : Node) : node.text = "" ↔ ∀ s, node.HasPiece s → s = "" := by
  match node with
  | .cite c =>
    rw [text]
    exact iff_of_true rfl (by rintro s ⟨⟩)
  | .header level attributes inlines =>
    have ih : ∀ node ∈ inlines, node.text = "" ↔ ∀ s, node.HasPiece s → s = "" :=
      fun node hnode ↦ text_eq_empty_iff node
    rw [text, listText_eq_empty_iff]
    constructor
    · rintro h s (_ | _ | _ | ⟨hnode, hs⟩)
      exact (ih _ hnode).mp (h _ hnode) s hs
    · exact fun h node hnode ↦ (ih node hnode).mpr fun s hs ↦ h s (.inline hnode hs)
  | .object fields =>
    have ih : ∀ node, fields.lookup "c" = some node →
        (node.text = "" ↔ ∀ s, node.HasPiece s → s = "") :=
      fun node hnode ↦ text_eq_empty_iff node
    rw [text_object_eq_empty_iff]
    constructor
    · rintro ⟨hown, hcontents⟩ s (hs | ⟨hnone, hnode, hs⟩)
      · exact hown s hs
      · exact (ih _ hnode).mp (hcontents hnone _ hnode) s hs
    · intro h
      exact ⟨fun s hs ↦ h s (.own hs), fun hnone node hnode ↦
        (ih node hnode).mpr fun s hs ↦ h s (.contents hnone hnode hs)⟩
  | .array items =>
    have ih : ∀ node ∈ items, node.text = "" ↔ ∀ s, node.HasPiece s → s = "" :=
      fun node hnode ↦ text_eq_empty_iff node
    rw [text, listText_eq_empty_iff]
    constructor
    · rintro h s (_ | _ | ⟨hnode, hs⟩ | _)
      exact (ih _ hnode).mp (h _ hnode) s hs
    · exact fun h node hnode ↦ (ih node hnode).mpr fun s hs ↦ h s (.element hnode hs)
  | .leaf value =>
    rw [text]
    exact iff_of_true rfl (by rintro s ⟨⟩)
termination_by sizeOf node
decreasing_by
  · have hlt := List.sizeOf_lt_of_mem hnode
    simp only [Node.header.sizeOf_spec]
    omega
  · exact sizeOf_lt_of_lookup hnode
  · have hlt := List.sizeOf_lt_of_mem hnode
    simp only [Node.array.sizeOf_spec]
    omega

/-! ## The node where the text is looked for -/

/-- The node is a metadata list with these elements. -/
def Lists (node : Node) (items : List Node) : Prop :=
  node.tag? = some "MetaList" ∧ node.content? = some (.array items)

/-- The text of a metadata value is looked for in the node that is found: in the value itself unless
it is a list, and otherwise where the first element leads to. -/
inductive Leads : Node → Node → Prop
  | here {node : Node} : (∀ items, ¬node.Lists items) → Leads node node
  | first {node first found : Node} {rest : List Node} : node.Lists (first :: rest) →
      Leads first found → Leads node found

variable {items : List Node} {found : Node}

theorem Lists.exists_fields (h : node.Lists items) :
    ∃ fields, node = .object fields ∧ tagOf? fields = some "MetaList" ∧
      fields.lookup "c" = some (.array items) := by
  obtain ⟨htag, hcontents⟩ := h
  match node with
  | .object fields => exact ⟨fields, rfl, htag, hcontents⟩

theorem not_lists_of_tag? {tag : String} (htag : node.tag? = some tag) (h : tag ≠ "MetaList")
    (items : List Node) : ¬node.Lists items := fun hlists ↦
  h (Option.some.inj (htag.symm.trans hlists.1))

theorem Lists.sizeOf_lt {first : Node} {rest : List Node} (h : node.Lists (first :: rest)) :
    sizeOf first < sizeOf node := by
  obtain ⟨fields, rfl, -, hcontents⟩ := h.exists_fields
  have hlt := sizeOf_lt_of_lookup hcontents
  simp only [Node.array.sizeOf_spec, List.cons.sizeOf_spec] at hlt
  omega

theorem Lists.unique (h : node.Lists items) {items' : List Node} (h' : node.Lists items') :
    items = items' := by
  have heq := h.2.symm.trans h'.2
  cases heq
  rfl

theorem Lists.leads_iff {first : Node} {rest : List Node} (h : node.Lists (first :: rest)) :
    Leads node found ↔ Leads first found := by
  refine ⟨fun hfound ↦ ?_, .first h⟩
  cases hfound with
  | here hnot => exact (hnot _ h).elim
  | first h' hfound =>
    cases h.unique h'
    exact hfound

theorem Lists.not_leads (h : node.Lists []) : ¬Leads node found := by
  intro hfound
  cases hfound with
  | here hnot => exact hnot _ h
  | first h' => cases h.unique h'

end Node

namespace Metadata

open Node (Leads)

variable {node found : Node} {items : List Node}

theorem firstText_of_lookup {fields : List (String × Node)}
    (h : fields.lookup "c" = some (.array items)) :
    firstText fields = (items.head?.map valueText).getD "" := by
  induction fields with
  | nil => cases h
  | cons field rest ih =>
    obtain ⟨key, node⟩ := field
    rw [Json.lookup_cons_eq_ite] at h
    rw [firstText.eq_def]
    dsimp only
    split at h
    · rename_i hkey
      obtain rfl := Option.some.inj h
      rw [if_pos hkey]
      cases items <;> rfl
    · rename_i hkey
      rw [if_neg hkey, ih h]

/-- Contents that are not an array have their text like those of any other element. -/
theorem firstText_eq_contentText {fields : List (String × Node)}
    (h : ∀ items, fields.lookup "c" ≠ some (.array items)) :
    firstText fields = Node.contentText fields := by
  induction fields with
  | nil => rw [firstText, Node.contentText]
  | cons field rest ih =>
    obtain ⟨key, node⟩ := field
    rw [Node.contentText, firstText.eq_def]
    dsimp only
    rw [Json.lookup_cons_eq_ite] at h
    split
    · rename_i hkey
      rw [if_pos hkey] at h
      cases node with
      | array items => exact (h items rfl).elim
      | cite | header | object | leaf => rfl
    · rename_i hkey
      rw [if_neg hkey] at h
      exact ih h

theorem valueText_of_lists (h : node.Lists items) :
    valueText node = (items.head?.map valueText).getD "" := by
  obtain ⟨fields, rfl, htag, hcontents⟩ := h.exists_fields
  rw [valueText, if_pos htag, firstText_of_lookup hcontents]

theorem valueText_of_not_lists (h : ∀ items, ¬node.Lists items) : valueText node = node.text := by
  cases node with
  | object fields =>
    rw [valueText]
    split
    · rename_i htag
      have hcontents : ∀ items, fields.lookup "c" ≠ some (.array items) :=
        fun items hitems ↦ h items ⟨htag, hitems⟩
      rw [firstText_eq_contentText hcontents, Node.text_of_not_shows
        (Node.not_shows htag (by decide) fun hmem ↦ absurd hmem (by decide))]
    · rfl
  | cite | header | array | leaf => rw [valueText]

theorem valueText_of_leads (h : Leads node found) : valueText node = found.text := by
  induction h with
  | here hnot => exact valueText_of_not_lists hnot
  | first hlists _ ih => rw [valueText_of_lists hlists]; exact ih

/-- **A value is without text exactly if all pieces are empty where one looks for it.** -/
theorem valueText_eq_empty_iff (node : Node) :
    valueText node = "" ↔ ∀ found, node.Leads found → ∀ s, found.HasPiece s → s = "" := by
  by_cases hlists : ∃ items, node.Lists items
  · obtain ⟨items, hlists⟩ := hlists
    rw [valueText_of_lists hlists]
    match items with
    | [] => exact iff_of_true rfl fun found hfound ↦ (hlists.not_leads hfound).elim
    | first :: rest =>
      have hfirst := valueText_eq_empty_iff first
      simp only [← hlists.leads_iff] at hfirst
      exact hfirst
  · have hnot := not_exists.mp hlists
    rw [valueText_of_not_lists hnot, Node.text_eq_empty_iff]
    refine ⟨fun h found hfound ↦ ?_, fun h ↦ h node (.here hnot)⟩
    cases hfound with
    | here => exact h
    | first hlists => exact (hnot _ hlists).elim
termination_by sizeOf node
decreasing_by exact hlists.sizeOf_lt

end Metadata

end CitationFilter
