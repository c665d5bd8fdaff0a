import CitationFilter.Proofs.Document.Filling

/-!
# Filling does not change the text

A cite node has no text, and neither has the raw inline that takes its place. So the text of every
node around it stays as it is, and with it every title of a header.

An object is asked for its tag and perhaps for its own text, and both are leaves among its fields.
That is why a replacement must not be a leaf: in the place of a cite node among the fields it would
be taken for the tag.
-/

namespace CitationFilter

namespace Node

/-! ## Nodes that show nothing -/

/-- A node that looks from outside like a cite node: no text, no title, not a value. -/
structure Mute (node : Node) : Prop where
  text : node.text = ""
  title : node.title? = none
  not_leaf : ∀ value, node ≠ .leaf value

theorem mute_cite (c : Cite) : Mute (.cite c) :=
  ⟨by rw [text], rfl, by rintro _ ⟨⟩⟩

theorem mute_rawInline (format text : String) : Mute (.rawInline format text) := by
  refine ⟨?_, rfl, by rintro _ ⟨⟩⟩
  have hown : ownText?
      [("t", .leaf (.str "RawInline")), ("c", .leaf (.arr [.str format, .str text]))] = none := by
    rfl
  rw [rawInline, Node.text, hown]
  simp [contentText, Node.text]

/-- What takes the place of a cite node is mute if all the replacements are. -/
theorem mute_headD {nodes : List Node} (h : ∀ node ∈ nodes, Mute node) (c : Cite) :
    Mute (nodes.headD (.cite c)) :=
  headD_of_forall h (mute_cite c)

section Mute

variable {nodes : List Node}

/-! ## Leaves among the fields -/

theorem filled_eq_leaf_iff (h : ∀ node ∈ nodes, Mute node) (node : Node) (value : Json) :
    node.filled nodes = .leaf value ↔ node = .leaf value := by
  cases node with
  | cite c =>
    rw [filled]
    exact iff_of_false ((mute_headD h c).not_leaf value) (by rintro ⟨⟩)
  | header level attributes inlines => simp [filled]
  | object fields => simp [filled]
  | array items => simp [filled]
  | leaf other => rw [filled]

theorem lookup_fieldFilled_eq_leaf_iff (h : ∀ node ∈ nodes, Mute node) (key : String)
    (fields : List (String × Node)) (value : Json) :
    (fieldFilled fields nodes).lookup key = some (.leaf value)
      ↔ fields.lookup key = some (.leaf value) := by
  induction fields generalizing nodes with
  | nil => rw [fieldFilled]
  | cons field rest ih =>
    obtain ⟨name, node⟩ := field
    -- filling keeps the keys, so both lookups find the same field
    rw [fieldFilled, List.lookup_cons, List.lookup_cons]
    cases key == name with
    | true => simpa using filled_eq_leaf_iff h node value
    | false => exact ih (forall_mem_drop h _)

/-- The text in a leaf, if there is one. -/
def leafText? : Option Node → Option String
  | some (.leaf (.str s)) => some s
  | _ => none

theorem leafText?_eq_some_iff {node? : Option Node} {s : String} :
    leafText? node? = some s ↔ node? = some (.leaf (.str s)) := by
  unfold leafText?
  split
  · simp
  · rename_i hne
    exact iff_of_false (by rintro ⟨⟩) (hne s)

theorem leafText?_lookup_fieldFilled (h : ∀ node ∈ nodes, Mute node) (key : String)
    (fields : List (String × Node)) :
    leafText? ((fieldFilled fields nodes).lookup key) = leafText? (fields.lookup key) := by
  refine Option.ext fun s ↦ ?_
  rw [leafText?_eq_some_iff, leafText?_eq_some_iff,
    lookup_fieldFilled_eq_leaf_iff h]

theorem tagOf?_eq (fields : List (String × Node)) : tagOf? fields = leafText? (fields.lookup "t") :=
  rfl

theorem ownText?_eq (fields : List (String × Node)) :
    ownText? fields =
      match tagOf? fields with
      | none => none
      | some t =>
        if isTextTag t then leafText? (fields.lookup "c")
        else if isSpaceTag t then some " "
        else none := rfl

theorem ownText?_fieldFilled (h : ∀ node ∈ nodes, Mute node) (fields : List (String × Node)) :
    ownText? (fieldFilled fields nodes) = ownText? fields := by
  rw [ownText?_eq, ownText?_eq, tagOf?_eq, tagOf?_eq, leafText?_lookup_fieldFilled h,
    leafText?_lookup_fieldFilled h]

/-! ## Texts and titles -/

mutual

theorem text_filled (node : Node) {nodes : List Node} (h : ∀ node ∈ nodes, Mute node) :
    (node.filled nodes).text = node.text := by
  cases node with
  | cite c => rw [filled, text, (mute_headD h c).text]
  | header level attributes inlines => rw [filled, text, text, listText_listFilled inlines h]
  | object fields =>
    rw [filled, text, text, ownText?_fieldFilled h fields, contentText_fieldFilled fields h]
  | array items => rw [filled, text, text, listText_listFilled items h]
  | leaf value => rw [filled]

theorem listText_listFilled (list : List Node) {nodes : List Node}
    (h : ∀ node ∈ nodes, Mute node) : listText (listFilled list nodes) = listText list := by
  cases list with
  | nil => rw [listFilled]
  | cons node rest =>
    rw [listFilled, listText, listText, text_filled node h,
      listText_listFilled rest (forall_mem_drop h _)]

theorem contentText_fieldFilled (fields : List (String × Node)) {nodes : List Node}
    (h : ∀ node ∈ nodes, Mute node) :
    contentText (fieldFilled fields nodes) = contentText fields := by
  match fields with
  | [] => rw [fieldFilled]
  | (key, node) :: rest =>
    rw [fieldFilled, contentText, contentText, text_filled node h,
      contentText_fieldFilled rest (forall_mem_drop h _)]

end

theorem title?_filled (node : Node) (h : ∀ node ∈ nodes, Mute node) :
    (node.filled nodes).title? = node.title? := by
  cases node with
  | cite c => rw [filled, (mute_headD h c).title, (mute_cite c).title]
  | header level attributes inlines => rw [filled, title?, title?, listText_listFilled inlines h]
  | object fields => rfl
  | array items => rfl
  | leaf value => rfl

end Mute

end Node

end CitationFilter
