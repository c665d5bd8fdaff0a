import CitationFilter.Proofs.Document.Filling
import CitationFilter.Proofs.Json.Fields
import CitationFilter.Proofs.Json.Shape
import Mathlib.Data.List.Forall2

/-!
# The reader, one value at a time

An object is read in one of three ways: as a cite node, as a header with some contents, or as an
object like any other, which is also what becomes of a header that is not shaped like one. The
reader finds out while it goes through the fields. Here the choice is a function of the fields,
`Node.form`, and `Node.Reads` says for each kind of value what it is read as, given what the values
inside are read as.

Facts about what is read are proved by `Node.ReadingCases.apply`, which follows the tree. Its cases
are those of `Node.Reads`; the lists inside come with the fact for every member.
-/

namespace CitationFilter

namespace Node

/-! ## The form of an object -/

/-- The ways in which an object is read. -/
inductive Form where
  | cite
  | header (level attributes : Json) (inlines : List Json)
  | object

/-- The level, the attributes and the inlines that are the contents of a header. -/
def contentsOf? : Json → Option (Json × Json × List Json)
  | .arr [level, attributes, .arr inlines] => some (level, attributes, inlines)
  | _ => none

/-- The contents of a header among its fields. -/
def contents? (fields : List (String × Json)) : Option (Json × Json × List Json) :=
  (fields.lookup "c").bind contentsOf?

/-- The form of the object with these fields. -/
def form (fields : List (String × Json)) : Form :=
  match shape fields, contents? fields with
  | .cite, _ => .cite
  | .header, some (level, attributes, inlines) => .header level attributes inlines
  | .header, none => .object
  | .generic, _ => .object

theorem contents?_cons (key : String) (value : Json) (rest : List (String × Json)) :
    contents? ((key, value) :: rest) =
      if key = "c" then contentsOf? value else contents? rest := by
  rw [contents?, Json.lookup_cons_eq_ite, contents?]
  split <;> rfl

theorem shape_eq_cite_iff {fields : List (String × Json)} :
    shape fields = .cite ↔ fields.lookup "t" = some (.str "Cite") := by
  rw [shape, ← Json.bind_text?_eq_some_iff]
  rcases (fields.lookup "t").bind Json.text? with _ | t
  · simp
  · by_cases ht : t = "Cite"
    · simp [ht]
    · by_cases hheader : t = "Header" <;> simp [ht, hheader]

theorem shape_eq_header_iff {fields : List (String × Json)} :
    shape fields = .header ↔ fields.lookup "t" = some (.str "Header") := by
  rw [shape, ← Json.bind_text?_eq_some_iff]
  rcases (fields.lookup "t").bind Json.text? with _ | t
  · simp
  · by_cases hcite : t = "Cite"
    · simp [hcite]
    · by_cases ht : t = "Header" <;> simp [hcite, ht]

/-- What is read as a header is decided by the contents alone. -/
theorem headerOfFields_eq (fields : List (String × Json)) :
    headerOfFields fields =
      match contents? fields with
      | some (level, attributes, inlines) =>
        (listOfJson inlines).map fun nodes ↦ some (.header level attributes nodes)
      | none => .ok none := by
  induction fields with
  | nil => rfl
  | cons field rest ih =>
    obtain ⟨key, value⟩ := field
    rw [headerOfFields.eq_def, contents?_cons]
    dsimp only
    by_cases hkey : key = "c"
    · rw [if_pos hkey, if_pos hkey]
      split
      · rename_i level attributes inlines
        rw [contentsOf?]
        dsimp only
        rcases listOfJson inlines with _ | _ <;> rfl
      · rename_i hshape
        have hnone : contentsOf? value = none := by
          rw [contentsOf?]
          exact hshape
        rw [hnone]
    · rw [if_neg hkey, if_neg hkey]
      exact ih

theorem ofJson_obj (fields : List (String × Json)) :
    ofJson (.obj fields) =
      match form fields with
      | .cite => (Cite.ofJson (.obj fields)).map .cite
      | .header level attributes inlines => (listOfJson inlines).map (.header level attributes)
      | .object => (fieldsOfJson fields).map .object := by
  rw [ofJson, form, headerOfFields_eq]
  cases shape fields with
  | cite => rfl
  | header =>
    rcases contents? fields with _ | ⟨level, attributes, inlines⟩
    · rcases fieldsOfJson fields with _ | _ <;> rfl
    · dsimp only
      rcases listOfJson inlines with _ | _ <;> rfl
  | generic => rfl

theorem form_eq_header {fields : List (String × Json)} {level attributes : Json}
    {inlines : List Json} (h : form fields = .header level attributes inlines) :
    shape fields = .header ∧ contents? fields = some (level, attributes, inlines) := by
  rw [form] at h
  split at h
  · cases h
  · rename_i hshape hcontents
    cases h
    exact ⟨hshape, hcontents⟩
  · cases h
  · cases h

theorem form_eq_cite_iff {fields : List (String × Json)} :
    form fields = .cite ↔ fields.lookup "t" = some (.str "Cite") := by
  rw [← shape_eq_cite_iff, form]
  rcases shape fields
  · simp
  · rcases contents? fields with _ | ⟨level, attributes, inlines⟩ <;> simp
  · simp

theorem lookup_of_form_eq_header {fields : List (String × Json)} {level attributes : Json}
    {inlines : List Json} (h : form fields = .header level attributes inlines) :
    fields.lookup "c" = some (.arr [level, attributes, .arr inlines]) := by
  obtain ⟨value, hvalue, hparts⟩ := Option.bind_eq_some_iff.mp (form_eq_header h).2
  rw [contentsOf?.eq_def] at hparts
  split at hparts
  · cases hparts
    exact hvalue
  · cases hparts

/-! ## One value -/

end Node

/-- A value with nothing inside. -/
def Json.IsLeaf : Json → Prop
  | .arr _ => False
  | .obj _ => False
  | _ => True

namespace Node

/-- What a value is read as, given what the values inside are read as. -/
inductive Reads : Json → Node → Prop
  | cite {fields : List (String × Json)} {c : Cite} : form fields = .cite →
      Cite.ofJson (.obj fields) = .ok c → Reads (.obj fields) (.cite c)
  | header {fields : List (String × Json)} {level attributes : Json} {inlines : List Json}
      {nodes : List Node} : form fields = .header level attributes inlines →
      listOfJson inlines = .ok nodes → Reads (.obj fields) (.header level attributes nodes)
  | object {fields : List (String × Json)} {nodes : List (String × Node)} :
      form fields = .object → fieldsOfJson fields = .ok nodes → Reads (.obj fields) (.object nodes)
  | array {items : List Json} {nodes : List Node} : listOfJson items = .ok nodes →
      Reads (.arr items) (.array nodes)
  | leaf {value : Json} : value.IsLeaf → Reads value (.leaf value)

variable {value : Json} {node : Node}

theorem Reads.ofJson_eq (h : Reads value node) : ofJson value = .ok node := by
  cases h with
  | cite hform hcite => rw [ofJson_obj, hform, hcite]; rfl
  | header hform hnodes => rw [ofJson_obj, hform]; dsimp only; rw [hnodes]; rfl
  | object hform hnodes => rw [ofJson_obj, hform]; dsimp only; rw [hnodes]; rfl
  | array hnodes => rw [ofJson, hnodes]; rfl
  | leaf hleaf =>
    cases value with
    | arr items => exact hleaf.elim
    | obj fields => exact hleaf.elim
    | null => rfl
    | bool b => rfl
    | num n => rfl
    | str s => rfl

theorem reads_of_ofJson (h : ofJson value = .ok node) : Reads value node := by
  cases value with
  | obj fields =>
    rw [ofJson_obj] at h
    cases hform : form fields with
    | cite =>
      rw [hform] at h
      obtain ⟨c, hcite, rfl⟩ := Except.map_eq_ok.mp h
      exact .cite hform hcite
    | header level attributes inlines =>
      rw [hform] at h
      obtain ⟨nodes, hnodes, rfl⟩ := Except.map_eq_ok.mp h
      exact .header hform hnodes
    | object =>
      rw [hform] at h
      obtain ⟨nodes, hnodes, rfl⟩ := Except.map_eq_ok.mp h
      exact .object hform hnodes
  | arr items =>
    rw [ofJson] at h
    obtain ⟨nodes, hnodes, rfl⟩ := Except.map_eq_ok.mp h
    exact .array hnodes
  | null => cases h; exact .leaf trivial
  | bool b => cases h; exact .leaf trivial
  | num n => cases h; exact .leaf trivial
  | str s => cases h; exact .leaf trivial

/-- A cite node is the whole object that it was read from. -/
theorem raw_of_ofJson {raw : Json} {c : Cite} (h : Cite.ofJson raw = .ok c) : c.raw = raw := by
  rw [Cite.ofJson] at h
  split at h
  · cases h
  · split at h
    · cases h
      rfl
    · cases h

/-- The relation is what the reader computes. -/
theorem reads_iff : Reads value node ↔ ofJson value = .ok node :=
  ⟨Reads.ofJson_eq, reads_of_ofJson⟩

/-! ## Lists of values -/

theorem listOfJson_eq_ok_iff {items : List Json} {nodes : List Node} :
    listOfJson items = .ok nodes ↔
      List.Forall₂ (fun item node ↦ ofJson item = .ok node) items nodes := by
  induction items generalizing nodes with
  | nil =>
    rw [listOfJson, List.forall₂_nil_left_iff]
    exact ⟨fun h ↦ (Except.ok.inj h).symm, fun h ↦ congrArg Except.ok h.symm⟩
  | cons item rest ih =>
    rw [List.forall₂_cons_left_iff]
    constructor
    · intro h
      obtain ⟨node, hnode, h⟩ := Except.bind_eq_ok.mp h
      obtain ⟨nodes, hnodes, h⟩ := Except.bind_eq_ok.mp h
      exact ⟨node, nodes, hnode, ih.mp hnodes, (Except.ok.inj h).symm⟩
    · rintro ⟨node, nodes, hnode, hnodes, rfl⟩
      rw [listOfJson, hnode, ih.mpr hnodes]
      rfl

theorem listOfJson_cons {item : Json} {rest : List Json} {node : Node} {nodes : List Node}
    (hitem : ofJson item = .ok node) (hrest : listOfJson rest = .ok nodes) :
    listOfJson (item :: rest) = .ok (node :: nodes) :=
  listOfJson_eq_ok_iff.mpr (.cons hitem (listOfJson_eq_ok_iff.mp hrest))

/-- What holds of every value that is read holds of the elements of a list that is read. -/
theorem forall₂_of_listOfJson {motive : Json → Node → Prop} {items : List Json}
    {nodes : List Node} (h : listOfJson items = .ok nodes)
    (hmotive : ∀ {item node}, ofJson item = .ok node → motive item node) :
    List.Forall₂ (fun item node ↦ ofJson item = .ok node ∧ motive item node) items nodes :=
  (listOfJson_eq_ok_iff.mp h).imp fun _ _ hitem ↦ ⟨hitem, hmotive hitem⟩

theorem fieldsOfJson_eq_ok_iff {fields : List (String × Json)} {nodes : List (String × Node)} :
    fieldsOfJson fields = .ok nodes ↔
      List.Forall₂ (fun field node ↦ field.1 = node.1 ∧ ofJson field.2 = .ok node.2)
        fields nodes := by
  induction fields generalizing nodes with
  | nil =>
    rw [fieldsOfJson, List.forall₂_nil_left_iff]
    exact ⟨fun h ↦ (Except.ok.inj h).symm, fun h ↦ congrArg Except.ok h.symm⟩
  | cons field rest ih =>
    obtain ⟨key, value⟩ := field
    rw [List.forall₂_cons_left_iff]
    constructor
    · intro h
      obtain ⟨node, hnode, h⟩ := Except.bind_eq_ok.mp h
      obtain ⟨nodes, hnodes, h⟩ := Except.bind_eq_ok.mp h
      exact ⟨(key, node), nodes, ⟨rfl, hnode⟩, ih.mp hnodes, (Except.ok.inj h).symm⟩
    · rintro ⟨⟨key', node⟩, nodes, ⟨rfl, hnode⟩, hnodes, rfl⟩
      rw [fieldsOfJson, hnode, ih.mpr hnodes]
      rfl

/-! ## Induction along the tree -/

section Induction

variable {motive : Json → Node → Prop}

/-- What has to be shown of a value and the node that is read from it, for each kind of value. -/
structure ReadingCases (motive : Json → Node → Prop) : Prop where
  cite : ∀ {fields c}, form fields = .cite → Cite.ofJson (.obj fields) = .ok c →
    motive (.obj fields) (.cite c)
  header : ∀ {fields level attributes inlines nodes},
    form fields = .header level attributes inlines →
    List.Forall₂ (fun item node ↦ ofJson item = .ok node ∧ motive item node) inlines nodes →
    motive (.obj fields) (.header level attributes nodes)
  object : ∀ {fields nodes}, form fields = .object →
    List.Forall₂ (fun field node ↦
      field.1 = node.1 ∧ ofJson field.2 = .ok node.2 ∧ motive field.2 node.2) fields nodes →
    motive (.obj fields) (.object nodes)
  array : ∀ {items nodes},
    List.Forall₂ (fun item node ↦ ofJson item = .ok node ∧ motive item node) items nodes →
    motive (.arr items) (.array nodes)
  leaf : ∀ {value}, value.IsLeaf → motive value (.leaf value)

mutual

/-- Induction along the tree that is read. -/
theorem ReadingCases.apply (cases : ReadingCases motive) (node : Node) {value : Json}
    (h : ofJson value = .ok node) : motive value node := by
  match node, reads_of_ofJson h with
  | .cite c, .cite hform hcite => exact cases.cite hform hcite
  | .header level attributes nodes, .header hform hnodes =>
    exact cases.header hform (cases.applyList nodes hnodes)
  | .object nodes, .object hform hnodes => exact cases.object hform (cases.applyFields nodes hnodes)
  | .array nodes, .array hnodes => exact cases.array (cases.applyList nodes hnodes)
  | .leaf value, .leaf hleaf => exact cases.leaf hleaf

theorem ReadingCases.applyList (cases : ReadingCases motive) (nodes : List Node)
    {items : List Json} (h : listOfJson items = .ok nodes) :
    List.Forall₂ (fun item node ↦ ofJson item = .ok node ∧ motive item node) items nodes := by
  match nodes, items, listOfJson_eq_ok_iff.mp h with
  | [], [], .nil => exact .nil
  | node :: nodes, item :: items, .cons hnode hnodes =>
    exact .cons ⟨hnode, cases.apply node hnode⟩
      (cases.applyList nodes (listOfJson_eq_ok_iff.mpr hnodes))

theorem ReadingCases.applyFields (cases : ReadingCases motive) (nodes : List (String × Node))
    {fields : List (String × Json)} (h : fieldsOfJson fields = .ok nodes) :
    List.Forall₂ (fun field node ↦
      field.1 = node.1 ∧ ofJson field.2 = .ok node.2 ∧ motive field.2 node.2) fields nodes := by
  match nodes, fields, fieldsOfJson_eq_ok_iff.mp h with
  | [], [], .nil => exact .nil
  | (key, node) :: nodes, field :: fields, .cons hnode hnodes =>
    exact .cons ⟨hnode.1, hnode.2, cases.apply node hnode.2⟩
      (cases.applyFields nodes (fieldsOfJson_eq_ok_iff.mpr hnodes))

end

end Induction

end Node

end CitationFilter
