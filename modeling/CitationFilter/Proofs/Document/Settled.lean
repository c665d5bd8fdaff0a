import CitationFilter.Proofs.Document.Outline
import CitationFilter.Proofs.Json.Reread

/-!
# Values without a cite node

A value is settled if it is read as a tree without cite nodes and the tree is written as the value
again. `Json.Settled` says so by the form of the value. Two things are shown of it: a tree whose
cite nodes have all been replaced by settled objects is written as a settled value
(`Node.settledByFilling`), and reading the numbers anew keeps a value settled. So nothing that is
filled in makes a cite node together with what is around it.
-/

namespace CitationFilter

namespace Json

/-- The value is read as a tree without cite nodes, which is written as the same value: its objects
are headers just as they are written, or have no form of their own. -/
inductive Settled : Json → Prop
  | leaf {value : Json} : value.IsLeaf → Settled value
  | array {items : List Json} : (∀ item ∈ items, Settled item) → Settled (.arr items)
  | header {level attributes : Json} {inlines : List Json} : (∀ item ∈ inlines, Settled item) →
      Settled (.obj [("t", .str "Header"), ("c", .arr [level, attributes, .arr inlines])])
  | object {fields : List (String × Json)} : Node.form fields = .object →
      (∀ field ∈ fields, Settled field.2) → Settled (.obj fields)

end Json

namespace Node

/-! ## What a settled value is read as -/

/-- What the value is read as has no cite nodes and is written as the value. -/
def ReadsSettled (value : Json) (node : Node) : Prop :=
  ofJson value = .ok node ∧ node.cites = [] ∧ node.toJson = value

theorem exists_listOfJson_of_settled {items : List Json}
    (h : ∀ item ∈ items, ∃ node, ReadsSettled item node) :
    ∃ nodes, listOfJson items = .ok nodes ∧ listCites nodes = [] ∧ listToJson nodes = items := by
  induction items with
  | nil => exact ⟨[], rfl, rfl, rfl⟩
  | cons item rest ih =>
    obtain ⟨⟨node, hnode, hcites, hvalue⟩, hrest⟩ := List.forall_mem_cons.mp h
    obtain ⟨nodes, hnodes, hnone, hvalues⟩ := ih hrest
    refine ⟨node :: nodes, listOfJson_cons hnode hnodes, ?_, ?_⟩
    · rw [listCites, hcites, hnone, List.append_nil]
    · rw [listToJson, hvalue, hvalues]

theorem exists_fieldsOfJson_of_settled {fields : List (String × Json)}
    (h : ∀ field ∈ fields, ∃ node, ReadsSettled field.2 node) :
    ∃ nodes, fieldsOfJson fields = .ok nodes ∧ fieldCites nodes = [] ∧
      fieldsToJson nodes = fields := by
  induction fields with
  | nil => exact ⟨[], rfl, rfl, rfl⟩
  | cons field rest ih =>
    obtain ⟨key, value⟩ := field
    obtain ⟨⟨node, hnode, hcites, hvalue⟩, hrest⟩ := List.forall_mem_cons.mp h
    obtain ⟨nodes, hnodes, hnone, hvalues⟩ := ih hrest
    refine ⟨(key, node) :: nodes, ?_, ?_, ?_⟩
    · rw [fieldsOfJson, hnode, hnodes]
      rfl
    · rw [fieldCites, hcites, hnone, List.append_nil]
    · rw [fieldsToJson, hvalue, hvalues]

end Node

namespace Json

open Node (ReadsSettled)

theorem Settled.exists_node {value : Json} (h : Settled value) :
    ∃ node, ReadsSettled value node := by
  induction h with
  | leaf hleaf => exact ⟨_, (Node.Reads.leaf hleaf).ofJson_eq, rfl, rfl⟩
  | array _ ih =>
    obtain ⟨nodes, hnodes, hnone, rfl⟩ := Node.exists_listOfJson_of_settled ih
    exact ⟨.array nodes, (Node.Reads.array hnodes).ofJson_eq, hnone, rfl⟩
  | header _ ih =>
    obtain ⟨nodes, hnodes, hnone, rfl⟩ := Node.exists_listOfJson_of_settled ih
    exact ⟨.header _ _ nodes, (Node.Reads.header rfl hnodes).ofJson_eq, hnone, rfl⟩
  | object hform _ ih =>
    obtain ⟨nodes, hnodes, hnone, rfl⟩ := Node.exists_fieldsOfJson_of_settled ih
    exact ⟨.object nodes, (Node.Reads.object hform hnodes).ofJson_eq, hnone, rfl⟩

/-! ## Numbers -/

theorem kind_reread (value : Json) : value.reread.kind = value.kind := by
  cases value <;> rfl

theorem outline_reread (value : Json) : value.reread.outline = value.outline := by
  cases value with
  | arr items =>
    have hkinds : (rereadItems items).map kind = items.map kind := by
      rw [rereadItems_eq_map, List.map_map]
      exact List.map_congr_left fun item _ ↦ kind_reread item
    exact congrArg (Prod.mk _) hkinds
  | null => rfl
  | bool b => rfl
  | num n => rfl
  | str s => rfl
  | obj fields => rfl

theorem alike_rereadFields (fields : List (String × Json)) :
    Node.Alike fields (rereadFields fields) := by
  induction fields with
  | nil => exact .nil
  | cons field rest ih =>
    obtain ⟨key, value⟩ := field
    exact .cons ⟨rfl, (outline_reread value).symm⟩ ih

/-- Which numbers a value holds does not matter. -/
theorem Settled.reread {value : Json} (h : Settled value) : Settled value.reread := by
  induction h with
  | @leaf value hleaf =>
    refine .leaf ?_
    cases value with
    | arr items => exact hleaf
    | obj fields => exact hleaf
    | null => trivial
    | bool b => trivial
    | num n => trivial
    | str s => trivial
  | @array items _ ih =>
    rw [Json.reread, rereadItems_eq_map]
    exact .array (List.forall_mem_map.mpr ih)
  | @header level attributes inlines _ ih =>
    refine .header ?_
    rw [rereadItems_eq_map]
    exact List.forall_mem_map.mpr ih
  | @object fields hform _ ih =>
    refine .object ((alike_rereadFields fields).form_eq_object hform) ?_
    rw [rereadFields_eq_map]
    exact List.forall_mem_map.mpr ih

end Json

/-! ## Filled trees -/

namespace Node

/-- The node is an object that is settled when it is written, so it can take the place of a cite
node. -/
structure Settling (node : Node) : Prop where
  kind : node.toJson.kind = .object
  settled : node.toJson.Settled

theorem settled_str (s : String) : (Json.str s).Settled := .leaf trivial

/-- An element that is neither a cite node nor a header is settled if its contents are. -/
theorem settled_element {tag : String} {contents : Json}
    (hform : form [("t", .str tag), ("c", contents)] = .object) (h : contents.Settled) :
    (Json.obj [("t", .str tag), ("c", contents)]).Settled :=
  .object hform (List.forall_mem_cons.mpr ⟨settled_str tag, List.forall_mem_singleton.mpr h⟩)

theorem settling_rawInline (format text : String) : Settling (.rawInline format text) := by
  refine ⟨rfl, settled_element rfl (.array ?_)⟩
  exact List.forall_mem_cons.mpr ⟨settled_str format,
    List.forall_mem_singleton.mpr (settled_str text)⟩

theorem settling_paragraph {inlines : List Node} (h : ∀ node ∈ inlines, node.toJson.Settled) :
    Settling (.paragraph inlines) := by
  refine ⟨rfl, settled_element rfl (.array ?_)⟩
  rw [listToJson_eq_map]
  exact List.forall_mem_map.mpr h

section Filled

variable {nodes : List Node}

/-- Filling the places of all cite nodes with settled objects settles the tree. -/
def SettledByFilling (node : Node) : Prop :=
  ∀ nodes : List Node, node.cites.length ≤ nodes.length → (∀ n ∈ nodes, Settling n) →
    (node.filled nodes).toJson.Settled

theorem settled_listFilled {items : List Json} {list : List Node}
    (h : List.Forall₂ (fun item node ↦ ofJson item = .ok node ∧ SettledByFilling node) items list)
    (hlength : (listCites list).length ≤ nodes.length) (hnodes : ∀ n ∈ nodes, Settling n) :
    ∀ item ∈ listToJson (listFilled list nodes), item.Settled := by
  induction h generalizing nodes with
  | nil => exact List.forall_mem_nil _
  | @cons item node _ _ hitem _ ih =>
    rw [listCites, List.length_append] at hlength
    rw [listFilled, listToJson, List.forall_mem_cons]
    refine ⟨hitem.2 nodes (by omega) hnodes, ih ?_ ?_⟩
    · rw [List.length_drop]
      omega
    · exact forall_mem_drop hnodes _

theorem settled_fieldFilled {fields : List (String × Json)} {list : List (String × Node)}
    (h : List.Forall₂ (fun field node ↦
      field.1 = node.1 ∧ ofJson field.2 = .ok node.2 ∧ SettledByFilling node.2) fields list)
    (hlength : (fieldCites list).length ≤ nodes.length) (hnodes : ∀ n ∈ nodes, Settling n) :
    ∀ field ∈ fieldsToJson (fieldFilled list nodes), field.2.Settled := by
  induction h generalizing nodes with
  | nil => exact List.forall_mem_nil _
  | @cons field entry _ _ hfield _ ih =>
    obtain ⟨key, node⟩ := entry
    rw [fieldCites, List.length_append] at hlength
    rw [fieldFilled, fieldsToJson, List.forall_mem_cons]
    have hfirst : node.cites.length ≤ nodes.length := by omega
    refine ⟨hfield.2.2 nodes hfirst hnodes, ih ?_ ?_⟩
    · rw [List.length_drop]
      omega
    · exact forall_mem_drop hnodes _

/-- **Filling settles.** When objects that are settled have taken the places of all cite nodes,
nothing in the tree is read as a cite node again: neither they nor what is around them. -/
theorem settledByFilling {value : Json} {node : Node} (h : ofJson value = .ok node) :
    SettledByFilling node := by
  have hcases : ReadingCases fun _ node ↦ SettledByFilling node := by
    refine ⟨?_, ?_, ?_, ?_, ?_⟩
    · intro fields c _ _ nodes hlength hnodes
      cases nodes with
      | nil => exact absurd hlength (Nat.not_succ_le_zero 0)
      | cons first rest => exact (hnodes first List.mem_cons_self).settled
    · intro fields level attributes inlines list _ hlist nodes hlength hnodes
      exact .header (settled_listFilled hlist hlength hnodes)
    · intro fields list hform hlist nodes hlength hnodes
      -- the objects look from outside like the cite nodes in whose places they are
      have hread : List.Forall₂ (fun field node ↦
          field.1 = node.1 ∧ ofJson field.2 = .ok node.2) fields list :=
        hlist.imp fun _ _ hfield ↦ ⟨hfield.1, hfield.2.1⟩
      have halike := alike_fieldFilled hread fun n hn ↦ (hnodes n hn).kind
      exact .object (halike.form_eq_object hform) (settled_fieldFilled hlist hlength hnodes)
    · intro items list hlist nodes hlength hnodes
      exact .array (settled_listFilled hlist hlength hnodes)
    · intro value hleaf nodes _ _
      exact .leaf hleaf
  exact hcases.apply node h

theorem forall_settled_listFilled {items : List Json} {list : List Node}
    (h : listOfJson items = .ok list) (hlength : (listCites list).length ≤ nodes.length)
    (hnodes : ∀ n ∈ nodes, Settling n) :
    ∀ node ∈ listFilled list nodes, node.toJson.Settled := by
  have hlist := forall₂_of_listOfJson h settledByFilling
  have hsettled := settled_listFilled hlist hlength hnodes
  rw [listToJson_eq_map] at hsettled
  exact List.forall_mem_map.mp hsettled

end Filled

end Node

end CitationFilter
