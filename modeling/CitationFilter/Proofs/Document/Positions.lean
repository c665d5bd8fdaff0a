import CitationFilter.Proofs.Document.Text

/-!
# What is seen at a position

A position in a tree is given by the path that leads to it. `Node.KeepsText` compares two trees
position by position: the nodes of the first tree are there in the second one as well, with the same
texts, and the headers of the two are in the same places, with the same titles. Filling the places
of cite nodes keeps texts in this sense if the nodes that are filled in are blank, which means that
there is no text in them and no header anywhere inside.
-/

namespace CitationFilter

namespace Node

/-! ## Positions -/

/-- The nodes directly inside of a node. There are none in a cite node. -/
def children : Node → List Node
  | .cite _ => []
  | .header _ _ inlines => inlines
  | .object fields => fields.map Prod.snd
  | .array items => items
  | .leaf _ => []

/-- The node to which a path leads, which says at each node which child comes next. -/
def nodeAt? : Node → List Nat → Option Node
  | node, [] => some node
  | node, i :: path => node.children[i]?.bind fun child ↦ child.nodeAt? path

/-- The title of the header to which a path leads. -/
def titleAt? (node : Node) (path : List Nat) : Option String := (node.nodeAt? path).bind title?

/-- The second tree shows the same texts and titles in the same places as the first one. -/
structure KeepsText (before after : Node) : Prop where
  text : ∀ path node, before.nodeAt? path = some node →
    ∃ node', after.nodeAt? path = some node' ∧ node'.text = node.text
  /-- A header is where there was one, with its title, and nowhere else. -/
  title : ∀ path, after.titleAt? path = before.titleAt? path

theorem titleAt?_cons (node : Node) (i : Nat) (path : List Nat) :
    node.titleAt? (i :: path) = node.children[i]?.bind fun child ↦ child.titleAt? path := by
  rw [titleAt?, nodeAt?, Option.bind_assoc]
  rfl

/-! ## Blank nodes -/

/-- A node without a header anywhere inside, which also is none itself. -/
def Untitled (node : Node) : Prop := ∀ path, node.titleAt? path = none

theorem untitled_of_children {node : Node} (htitle : node.title? = none)
    (hchildren : ∀ child ∈ node.children, Untitled child) : Untitled node := by
  intro path
  cases path with
  | nil => exact htitle
  | cons i path =>
    rw [titleAt?_cons, Option.bind_eq_none_iff]
    intro child hchild
    exact hchildren child (List.mem_of_getElem? hchild) path

theorem untitled_leaf (value : Json) : Untitled (.leaf value) :=
  untitled_of_children rfl (List.forall_mem_nil _)

/-- A node with no more to be seen than a cite node. -/
structure Blank (node : Node) : Prop extends Mute node where
  untitled : Untitled node

theorem blank_cite (c : Cite) : Blank (.cite c) :=
  ⟨mute_cite c, untitled_of_children rfl (List.forall_mem_nil _)⟩

theorem blank_rawInline (format text : String) : Blank (.rawInline format text) := by
  refine ⟨mute_rawInline format text, untitled_of_children rfl ?_⟩
  rw [rawInline]
  exact List.forall_mem_cons.mpr ⟨untitled_leaf _, List.forall_mem_singleton.mpr (untitled_leaf _)⟩

/-- A raw inline as it is read: here its contents are nodes and not a value. -/
def readRawInline (format text : String) : Node :=
  .object [("t", .leaf (.str "RawInline")), ("c", .array [.leaf (.str format), .leaf (.str text)])]

theorem ofJson_rawInline (format text : String) :
    ofJson (rawInline format text).toJson = .ok (readRawInline format text) := rfl

theorem blank_readRawInline (format text : String) : Blank (readRawInline format text) := by
  have hown : ownText? [("t", .leaf (.str "RawInline")),
      ("c", .array [.leaf (.str format), .leaf (.str text)])] = none := rfl
  have htext : (readRawInline format text).text = "" := by
    rw [readRawInline, Node.text, hown]
    simp [contentText, Node.text, listText]
  have hcontents : Untitled (.array [.leaf (.str format), .leaf (.str text)]) :=
    untitled_of_children rfl (List.forall_mem_cons.mpr
      ⟨untitled_leaf _, List.forall_mem_singleton.mpr (untitled_leaf _)⟩)
  refine ⟨⟨htext, rfl, by rintro _ ⟨⟩⟩, untitled_of_children rfl ?_⟩
  exact List.forall_mem_cons.mpr ⟨untitled_leaf _, List.forall_mem_singleton.mpr hcontents⟩

/-! ## Filled trees -/

section Filled

variable {nodes : List Node}

theorem map_snd_fieldFilled (fields : List (String × Node)) (nodes : List Node) :
    (fieldFilled fields nodes).map Prod.snd = listFilled (fields.map Prod.snd) nodes := by
  induction fields generalizing nodes with
  | nil => rfl
  | cons field rest ih =>
    obtain ⟨key, node⟩ := field
    rw [fieldFilled, List.map_cons, List.map_cons, listFilled, ih]

/-- Each member of a list is filled with the nodes from some point on. -/
theorem getElem?_listFilled (list nodes : List Node) (i : Nat) :
    ∃ n, (listFilled list nodes)[i]? = list[i]?.map fun node ↦ node.filled (nodes.drop n) := by
  induction list generalizing nodes i with
  | nil => exact ⟨0, rfl⟩
  | cons node rest ih =>
    rw [listFilled]
    cases i with
    | zero => exact ⟨0, rfl⟩
    | succ i =>
      obtain ⟨n, hn⟩ := ih (nodes.drop node.cites.length) i
      rw [List.getElem?_cons_succ, List.getElem?_cons_succ, hn]
      exact ⟨node.cites.length + n, by rw [← List.drop_drop]⟩

theorem getElem?_children_filled {node : Node} (hnode : ∀ c, node ≠ .cite c) (nodes : List Node)
    (i : Nat) :
    ∃ n, (node.filled nodes).children[i]?
      = node.children[i]?.map fun child ↦ child.filled (nodes.drop n) := by
  cases node with
  | cite c => exact (hnode c rfl).elim
  | header level attributes inlines => exact getElem?_listFilled inlines nodes i
  | object fields =>
    rw [filled, children, map_snd_fieldFilled]
    exact getElem?_listFilled (fields.map Prod.snd) nodes i
  | array items => exact getElem?_listFilled items nodes i
  | leaf value => exact ⟨0, rfl⟩

theorem exists_nodeAt?_filled {path : List Nat} {node found : Node}
    (h : ∀ node ∈ nodes, Mute node) (hfound : node.nodeAt? path = some found) :
    ∃ found', (node.filled nodes).nodeAt? path = some found' ∧ found'.text = found.text := by
  induction path generalizing node nodes with
  | nil =>
    cases hfound
    exact ⟨_, rfl, text_filled _ h⟩
  | cons i path ih =>
    obtain ⟨child, hchild, hfound⟩ := Option.bind_eq_some_iff.mp hfound
    -- there is no way on from a cite node
    have hnode : ∀ c, node ≠ .cite c := by
      rintro c rfl
      cases hchild
    obtain ⟨n, hn⟩ := getElem?_children_filled hnode nodes i
    rw [nodeAt?, hn, hchild]
    exact ih (forall_mem_drop h n) hfound

theorem titleAt?_filled (h : ∀ node ∈ nodes, Blank node) (node : Node) (path : List Nat) :
    (node.filled nodes).titleAt? path = node.titleAt? path := by
  induction path generalizing node nodes with
  | nil => exact title?_filled node fun n hn ↦ (h n hn).toMute
  | cons i path ih =>
    by_cases hcite : ∃ c, node = .cite c
    · obtain ⟨c, rfl⟩ := hcite
      have hhead : Blank (nodes.headD (.cite c)) := headD_of_forall h (blank_cite c)
      rw [filled, hhead.untitled, (blank_cite c).untitled]
    · obtain ⟨n, hn⟩ := getElem?_children_filled (not_exists.mp hcite) nodes i
      rw [titleAt?_cons, titleAt?_cons, hn]
      rcases node.children[i]? with _ | child
      · rfl
      · exact ih (forall_mem_drop h n) child

/-- **Blank nodes change nothing that is seen.** -/
theorem keepsText_filled (node : Node) (h : ∀ node ∈ nodes, Blank node) :
    KeepsText node (node.filled nodes) :=
  ⟨fun _ _ hfound ↦ exists_nodeAt?_filled (fun n hn ↦ (h n hn).toMute) hfound,
    titleAt?_filled h node⟩

end Filled

end Node

end CitationFilter
