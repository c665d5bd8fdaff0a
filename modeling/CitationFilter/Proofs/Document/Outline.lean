import CitationFilter.Proofs.Document.Form

/-!
# What the reader sees of a value from outside

Which form an object has depends on little of what is in it: on the text of the tag, and on whether
the contents are an array of three of which the last is an array. `Json.outline` is as much of a
value as that. A tree that is written has the outlines of the values that it was read from, also
when other objects have taken the places of its cite nodes, because a cite node is an object too.
So a written object is read in the form in which it was read before (`Node.Alike.form_eq_object`).
-/

namespace CitationFilter

namespace Json

/-- What is seen of a value inside an array. -/
inductive Kind where
  | text (s : String)
  | array
  | object
  | other
deriving DecidableEq, Repr

/-- The kind of a value. -/
def kind : Json → Kind
  | .str s => .text s
  | .arr _ => .array
  | .obj _ => .object
  | _ => .other

/-- What is seen of the value of a field: its kind, and the kinds of the elements of an array. -/
def outline (value : Json) : Kind × List Kind :=
  match value with
  | .arr items => (.array, items.map kind)
  | _ => (value.kind, [])

theorem outline_of_kind_eq_object {value : Json} (h : value.kind = .object) :
    value.outline = (.object, []) := by
  cases value with
  | obj fields => rfl
  | null => cases h
  | bool b => cases h
  | num n => cases h
  | str s => cases h
  | arr items => cases h

/-- The text that an outline shows. -/
def outlineText? : Kind × List Kind → Option String
  | (.text s, _) => some s
  | _ => none

theorem text?_eq (value : Json) : value.text? = outlineText? value.outline := by
  cases value <;> rfl

/-- Whether an outline is that of the contents of a header. -/
def isContents : Kind × List Kind → Bool
  | (.array, [_, _, .array]) => true
  | _ => false

end Json

namespace Node

open Json (kind outline)

theorem isSome_contentsOf? (value : Json) :
    (contentsOf? value).isSome = Json.isContents value.outline := by
  match value with
  | .null => rfl
  | .bool b => rfl
  | .num n => rfl
  | .str s => rfl
  | .obj fields => rfl
  | .arr [] => rfl
  | .arr [a] => rfl
  | .arr [a, b] => rfl
  | .arr (a :: b :: c :: d :: rest) => cases c <;> rfl
  | .arr [a, b, c] => cases c <;> rfl

/-! ## The form of an object -/

/-- Two objects that look alike: the same keys in the same order, with values of the same
outlines. -/
def Alike (fields fields' : List (String × Json)) : Prop :=
  List.Forall₂ (fun field field' ↦ field.1 = field'.1 ∧ field.2.outline = field'.2.outline)
    fields fields'

variable {fields fields' : List (String × Json)}

theorem Alike.lookup (h : Alike fields fields') (key : String) :
    (fields.lookup key).map outline = (fields'.lookup key).map outline := by
  have hrel := Json.rel_lookup (r := fun value value' ↦ outline value = outline value') h key
  generalize fields.lookup key = found, fields'.lookup key = found' at hrel ⊢
  cases hrel with
  | some houtline => exact congrArg some houtline
  | none => rfl

theorem Alike.shape_eq (h : Alike fields fields') : shape fields = shape fields' := by
  have htext : ∀ found : Option Json,
      found.bind Json.text? = (found.map outline).bind Json.outlineText? := by
    rintro (_ | value)
    · rfl
    · exact Json.text?_eq value
  rw [shape, shape, htext, htext, h.lookup]

theorem Alike.isSome_contents?_eq (h : Alike fields fields') :
    (contents? fields).isSome = (contents? fields').isSome := by
  have hcontents : ∀ found : Option Json,
      (found.bind contentsOf?).isSome = (found.map outline).any Json.isContents := by
    rintro (_ | value)
    · rfl
    · exact isSome_contentsOf? value
  rw [contents?, contents?, hcontents, hcontents, h.lookup]

theorem form_eq_object_iff :
    form fields = .object ↔
      shape fields = .generic ∨ shape fields = .header ∧ (contents? fields).isSome = false := by
  rw [form]
  cases shape fields <;> rcases contents? fields with _ | ⟨level, attributes, inlines⟩ <;> simp

/-- An object that looks like one without a form of its own has none either. -/
theorem Alike.form_eq_object (h : Alike fields fields') (hform : form fields = .object) :
    form fields' = .object := by
  rw [form_eq_object_iff] at hform ⊢
  rwa [← h.shape_eq, ← h.isSome_contents?_eq]

/-! ## Written trees -/

section Written

variable {value : Json} {node : Node} {nodes : List Node}

theorem kind_filled (h : ofJson value = .ok node) (hnodes : ∀ n ∈ nodes, n.toJson.kind = .object) :
    (node.filled nodes).toJson.kind = value.kind := by
  cases reads_of_ofJson h with
  | cite hform hcite =>
    cases nodes with
    | nil =>
      rw [filled, List.headD_nil, toJson, raw_of_ofJson hcite]
    | cons first rest => exact hnodes first List.mem_cons_self
  | header hform hinlines => rfl
  | object hform hfields => rfl
  | array hitems => rfl
  | leaf hleaf => rfl

theorem map_kind_listFilled {items : List Json} {list : List Node}
    (h : List.Forall₂ (fun item node ↦ ofJson item = .ok node) items list)
    (hnodes : ∀ n ∈ nodes, n.toJson.kind = .object) :
    (listToJson (listFilled list nodes)).map kind = items.map kind := by
  induction h generalizing nodes with
  | nil => rfl
  | @cons item node _ _ hitem _ ih =>
    rw [listFilled, listToJson, List.map_cons, List.map_cons, kind_filled hitem hnodes,
      ih (forall_mem_drop hnodes _)]

theorem outline_filled (h : ofJson value = .ok node)
    (hnodes : ∀ n ∈ nodes, n.toJson.kind = .object) :
    (node.filled nodes).toJson.outline = value.outline := by
  have hkind := kind_filled h hnodes
  cases reads_of_ofJson h with
  | cite hform hcite => exact Json.outline_of_kind_eq_object hkind
  | header hform hinlines => rfl
  | object hform hfields => rfl
  | array hitems =>
    exact congrArg (Prod.mk _) (map_kind_listFilled (listOfJson_eq_ok_iff.mp hitems) hnodes)
  | leaf hleaf => rfl

theorem alike_fieldFilled {fields : List (String × Json)} {list : List (String × Node)}
    (h : List.Forall₂ (fun field node ↦ field.1 = node.1 ∧ ofJson field.2 = .ok node.2) fields list)
    (hnodes : ∀ n ∈ nodes, n.toJson.kind = .object) :
    Alike fields (fieldsToJson (fieldFilled list nodes)) := by
  induction h generalizing nodes with
  | nil => exact .nil
  | @cons field entry _ _ hfield _ ih =>
    obtain ⟨key, node⟩ := entry
    exact .cons ⟨hfield.1, (outline_filled hfield.2 hnodes).symm⟩ (ih (forall_mem_drop hnodes _))

end Written

end Node

end CitationFilter
