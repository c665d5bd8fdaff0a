import CitationFilter.Document.Node
import CitationFilter.Proofs.Step

/-!
# Filling the places of the cite nodes

`Node.filled` puts other nodes into the places of the cite nodes of a tree, the first node into the
place of the cite node that is visited first. It neither fails nor has a state, so it says what a
tree becomes without saying how one walks through it.

The two traversals meet in `Node.mapCitesM_eq`: replacing cite nodes along the way, in any monad,
is the same as listing them, making the replacements for the list, and filling them in. Everything
about the order of the replacements and about the point where they stop is then a fact about lists.

The proof needs the number of the replacements, because a list of trees hands the first tree its
share and goes on with the rest. A monad does not tell how long a list comes out of `List.mapM`;
`mapM_bind_congr` lets what follows assume it nevertheless.
-/

namespace CitationFilter

namespace Node

/-! ## Filling -/

mutual

/-- The tree with other nodes in the places of its cite nodes, in order. Where the nodes run out the
cite node stays, and nodes that are left over do not matter. -/
def filled : Node → List Node → Node
  | .cite c, nodes => nodes.headD (.cite c)
  | .header level attributes inlines, nodes => .header level attributes (listFilled inlines nodes)
  | .object fields, nodes => .object (fieldFilled fields nodes)
  | .array items, nodes => .array (listFilled items nodes)
  | .leaf value, _ => .leaf value

/-- The trees of a list, filled with one list of nodes: each tree takes as many as it has places. -/
def listFilled : List Node → List Node → List Node
  | [], _ => []
  | node :: rest, nodes => node.filled nodes :: listFilled rest (nodes.drop node.cites.length)

/-- The values of fields, filled with one list of nodes. -/
def fieldFilled : List (String × Node) → List Node → List (String × Node)
  | [], _ => []
  | (key, node) :: rest, nodes =>
    (key, node.filled nodes) :: fieldFilled rest (nodes.drop node.cites.length)

end

/-! ## The nodes that are filled in -/

section Nodes

variable {p : Node → Prop} {nodes : List Node}

theorem forall_mem_drop (h : ∀ node ∈ nodes, p node) (n : Nat) : ∀ node ∈ nodes.drop n, p node :=
  fun node hnode ↦ h node (List.mem_of_mem_drop hnode)

theorem headD_of_forall (h : ∀ node ∈ nodes, p node) {default : Node} (hdefault : p default) :
    p (nodes.headD default) := by
  cases nodes with
  | nil => exact hdefault
  | cons node rest => exact h node List.mem_cons_self

end Nodes

mutual

/-- Nodes beyond the number of places do not matter. -/
theorem filled_append (node : Node) {nodes : List Node} (more : List Node)
    (h : node.cites.length ≤ nodes.length) : node.filled (nodes ++ more) = node.filled nodes := by
  cases node with
  | cite c =>
    cases nodes with
    | nil => simp [cites] at h
    | cons node rest => rfl
  | header level attributes inlines =>
    rw [cites] at h
    rw [filled, filled, listFilled_append inlines more h]
  | object fields =>
    rw [cites] at h
    rw [filled, filled, fieldFilled_append fields more h]
  | array items =>
    rw [cites] at h
    rw [filled, filled, listFilled_append items more h]
  | leaf value => rfl

theorem listFilled_append (list : List Node) {nodes : List Node} (more : List Node)
    (h : (listCites list).length ≤ nodes.length) :
    listFilled list (nodes ++ more) = listFilled list nodes := by
  cases list with
  | nil => rfl
  | cons node rest =>
    rw [listCites, List.length_append] at h
    rw [listFilled, listFilled, filled_append node more (by omega),
      List.drop_append_of_le_length (by omega),
      listFilled_append rest more (by rw [List.length_drop]; omega)]

theorem fieldFilled_append (fields : List (String × Node)) {nodes : List Node} (more : List Node)
    (h : (fieldCites fields).length ≤ nodes.length) :
    fieldFilled fields (nodes ++ more) = fieldFilled fields nodes := by
  match fields with
  | [] => rfl
  | (key, node) :: rest =>
    rw [fieldCites, List.length_append] at h
    rw [fieldFilled, fieldFilled, filled_append node more (by omega),
      List.drop_append_of_le_length (by omega),
      fieldFilled_append rest more (by rw [List.length_drop]; omega)]

end

/-- The first tree of a list takes its share, and the rest of the list takes the rest. -/
theorem listFilled_cons_append (node : Node) (rest : List Node) {nodes : List Node}
    (more : List Node) (h : nodes.length = node.cites.length) :
    listFilled (node :: rest) (nodes ++ more) = node.filled nodes :: listFilled rest more := by
  rw [listFilled, filled_append node more (Nat.le_of_eq h.symm), ← h, List.drop_left]

theorem fieldFilled_cons_append (key : String) (node : Node) (rest : List (String × Node))
    {nodes : List Node} (more : List Node) (h : nodes.length = node.cites.length) :
    fieldFilled ((key, node) :: rest) (nodes ++ more)
      = (key, node.filled nodes) :: fieldFilled rest more := by
  rw [fieldFilled, filled_append node more (Nat.le_of_eq h.symm), ← h, List.drop_left]

mutual

/-- Putting every cite node back where it was gives the tree itself: filling changes nothing but
the places. -/
theorem filled_map_cite (node : Node) : node.filled (node.cites.map .cite) = node := by
  cases node with
  | cite c => rfl
  | header level attributes inlines => rw [filled, cites, listFilled_map_cite inlines]
  | object fields => rw [filled, cites, fieldFilled_map_cite fields]
  | array items => rw [filled, cites, listFilled_map_cite items]
  | leaf value => rfl

theorem listFilled_map_cite (list : List Node) :
    listFilled list ((listCites list).map .cite) = list := by
  cases list with
  | nil => rfl
  | cons node rest =>
    rw [listCites, List.map_append, listFilled_cons_append node rest _ (List.length_map _),
      filled_map_cite node, listFilled_map_cite rest]

theorem fieldFilled_map_cite (fields : List (String × Node)) :
    fieldFilled fields ((fieldCites fields).map .cite) = fields := by
  match fields with
  | [] => rfl
  | (key, node) :: rest =>
    rw [fieldCites, List.map_append, fieldFilled_cons_append key node rest _ (List.length_map _),
      filled_map_cite node, fieldFilled_map_cite rest]

end

mutual

theorem filled_nil (node : Node) : node.filled [] = node := by
  cases node with
  | cite c => rfl
  | header level attributes inlines => rw [filled, listFilled_nil inlines]
  | object fields => rw [filled, fieldFilled_nil fields]
  | array items => rw [filled, listFilled_nil items]
  | leaf value => rfl

theorem listFilled_nil (list : List Node) : listFilled list [] = list := by
  cases list with
  | nil => rfl
  | cons node rest => rw [listFilled, filled_nil node, List.drop_nil, listFilled_nil rest]

theorem fieldFilled_nil (fields : List (String × Node)) : fieldFilled fields [] = fields := by
  match fields with
  | [] => rfl
  | (key, node) :: rest =>
    rw [fieldFilled, filled_nil node, List.drop_nil, fieldFilled_nil rest]

end

/-! ## Values -/

theorem listToJson_eq_map (list : List Node) : listToJson list = list.map toJson := by
  induction list with
  | nil => rfl
  | cons node rest ih => rw [listToJson, ih, List.map_cons]

theorem map_drop_congr {nodes nodes' : List Node} (h : nodes.map toJson = nodes'.map toJson)
    (n : Nat) : (nodes.drop n).map toJson = (nodes'.drop n).map toJson := by
  rw [List.map_drop, h, List.map_drop]

mutual

theorem toJson_filled_congr (node : Node) {nodes nodes' : List Node}
    (h : nodes.map toJson = nodes'.map toJson) :
    (node.filled nodes).toJson = (node.filled nodes').toJson := by
  cases node with
  | cite c =>
    have hhead : (nodes.map toJson).headD (cite c).toJson
        = (nodes'.map toJson).headD (cite c).toJson := by rw [h]
    rwa [List.headD_map, List.headD_map] at hhead
  | header level attributes inlines =>
    rw [filled, filled, toJson, toJson, listToJson_listFilled_congr inlines h]
  | object fields =>
    rw [filled, filled, toJson, toJson, fieldsToJson_fieldFilled_congr fields h]
  | array items => rw [filled, filled, toJson, toJson, listToJson_listFilled_congr items h]
  | leaf value => rfl

theorem listToJson_listFilled_congr (list : List Node) {nodes nodes' : List Node}
    (h : nodes.map toJson = nodes'.map toJson) :
    listToJson (listFilled list nodes) = listToJson (listFilled list nodes') := by
  cases list with
  | nil => rfl
  | cons node rest =>
    rw [listFilled, listFilled, listToJson, listToJson, toJson_filled_congr node h,
      listToJson_listFilled_congr rest (map_drop_congr h _)]

theorem fieldsToJson_fieldFilled_congr (fields : List (String × Node)) {nodes nodes' : List Node}
    (h : nodes.map toJson = nodes'.map toJson) :
    fieldsToJson (fieldFilled fields nodes) = fieldsToJson (fieldFilled fields nodes') := by
  match fields with
  | [] => rfl
  | (key, node) :: rest =>
    rw [fieldFilled, fieldFilled, fieldsToJson, fieldsToJson, toJson_filled_congr node h,
      fieldsToJson_fieldFilled_congr rest (map_drop_congr h _)]

end

/-! ## The traversal that replaces is the traversal that lists -/

section Lawful

variable {m : Type → Type} [Monad m] [LawfulMonad m]

/-- What follows a `List.mapM` may assume that there are as many results as elements. -/
theorem mapM_bind_congr {α β γ : Type} (f : α → m β) (as : List α) {g h : List β → m γ}
    (hgh : ∀ bs, bs.length = as.length → g bs = h bs) : as.mapM f >>= g = as.mapM f >>= h := by
  induction as generalizing g h with
  | nil => simpa using hgh [] rfl
  | cons a as ih =>
    rw [List.mapM_cons, bind_assoc, bind_assoc]
    refine bind_congr fun b ↦ ?_
    rw [bind_assoc, bind_assoc]
    refine ih fun bs hbs ↦ ?_
    rw [pure_bind, pure_bind]
    exact hgh (b :: bs) (by rw [List.length_cons, List.length_cons, hbs])

mutual

theorem mapCitesM_eq (f : Cite → m Node) (node : Node) :
    mapCitesM f node = node.cites.mapM f >>= fun nodes ↦ pure (node.filled nodes) := by
  cases node with
  | cite c => simp [mapCitesM, cites, filled]
  | header level attributes inlines =>
    rw [mapCitesM, listMapCitesM_eq f inlines, cites]
    simp [filled]
  | object fields =>
    rw [mapCitesM, fieldMapCitesM_eq f fields, cites]
    simp [filled]
  | array items =>
    rw [mapCitesM, listMapCitesM_eq f items, cites]
    simp [filled]
  | leaf value => simp [mapCitesM, cites, filled]

theorem listMapCitesM_eq (f : Cite → m Node) (list : List Node) :
    listMapCitesM f list
      = (listCites list).mapM f >>= fun nodes ↦ pure (listFilled list nodes) := by
  cases list with
  | nil => simp [listMapCitesM, listCites, listFilled]
  | cons node rest =>
    rw [listMapCitesM, mapCitesM_eq f node, listMapCitesM_eq f rest, listCites, List.mapM_append]
    simp only [bind_assoc, pure_bind]
    -- the first tree has as many replacements as cite nodes, so the rest starts after them
    refine mapM_bind_congr f _ fun nodes hnodes ↦ bind_congr fun more ↦ ?_
    rw [listFilled_cons_append node rest more hnodes]

theorem fieldMapCitesM_eq (f : Cite → m Node) (fields : List (String × Node)) :
    fieldMapCitesM f fields
      = (fieldCites fields).mapM f >>= fun nodes ↦ pure (fieldFilled fields nodes) := by
  match fields with
  | [] => simp [fieldMapCitesM, fieldCites, fieldFilled]
  | (key, node) :: rest =>
    rw [fieldMapCitesM, mapCitesM_eq f node, fieldMapCitesM_eq f rest, fieldCites,
      List.mapM_append]
    simp only [bind_assoc, pure_bind]
    refine mapM_bind_congr f _ fun nodes hnodes ↦ bind_congr fun more ↦ ?_
    rw [fieldFilled_cons_append key node rest more hnodes]

end

end Lawful

/-! ## Replacements that may fail -/

variable {ε σ : Type}

/-- A replacement with a state is made for the cite nodes in the order in which they are listed.
Either all are replaced, and the tree is filled with the replacements, or the first replacement that
fails ends the traversal with its error, and none is made for a later cite node. -/
theorem runFrom_mapCitesM (f : Cite → ExceptT ε (StateM σ) Node) (node : Node) (s : σ) :
    (∃ nodes s', Step.Answers f s node.cites nodes s' ∧
      Step.runFrom (mapCitesM f node) s = (.ok (node.filled nodes), s') ∧
      Step.runFrom (mapCitesM (Step.logged f) node) (s, [])
        = (.ok (node.filled nodes), s', node.cites)) ∨
    (∃ done c rest nodes s₁ e s', node.cites = done ++ c :: rest ∧
      Step.Answers f s done nodes s₁ ∧ Step.runFrom (f c) s₁ = (.error e, s') ∧
      Step.runFrom (mapCitesM f node) s = (.error e, s') ∧
      Step.runFrom (mapCitesM (Step.logged f) node) (s, [])
        = (.error e, s', done ++ [c])) := by
  rw [mapCitesM_eq, mapCitesM_eq]
  rcases Step.runFrom_mapM f node.cites s [] with
    ⟨nodes, s', hnodes, hrun, hlog⟩ |
    ⟨done, c, rest, nodes, s₁, e, s', hsplit, hnodes, hc, hrun, hlog⟩
  · refine Or.inl ⟨nodes, s', hnodes, ?_, ?_⟩
    · rw [Step.runFrom_bind_of_ok hrun, Step.runFrom_pure]
    · rw [Step.runFrom_bind_of_ok hlog, Step.runFrom_pure, List.nil_append]
  · refine Or.inr ⟨done, c, rest, nodes, s₁, e, s', hsplit, hnodes, hc, ?_, ?_⟩
    · exact Step.runFrom_bind_of_error hrun
    · rw [Step.runFrom_bind_of_error hlog, List.nil_append]

end Node

end CitationFilter
