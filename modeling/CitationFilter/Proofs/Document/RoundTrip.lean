import CitationFilter.Proofs.Document.Form
import CitationFilter.Proofs.Document.Frame
import CitationFilter.Proofs.Json.Reader

/-!
# What comes back when a document is read and written

A document is read into a tree and written from the tree. Cite nodes keep the whole object that they
were read from, and every other object but one keeps its fields in order. The exception are the
headers. A header is taken apart and put together again from its contents, so the object that is
written has the fields `t` and `c` in this order and no others, whatever the object was that was
read.

This is all that is lost. `Json.headers` lists the objects that are read as headers, as deep as the
reader goes, and a value comes back unchanged exactly if all of them have these two fields in this
order (`Node.toJson_eq_iff`). The proof is by `Node.ReadingCases`, as the list of headers follows
the forms of the objects (`Node.headers_obj`).
-/

namespace CitationFilter

namespace Json

/-- The fields of a header, in the order in which they are written. -/
def PlainHeader (fields : List (String × Json)) : Prop := fields.map Prod.fst = ["t", "c"]

instance (fields : List (String × Json)) : Decidable (PlainHeader fields) :=
  inferInstanceAs (Decidable (fields.map Prod.fst = ["t", "c"]))

mutual

/-- The objects that are read as headers, each as its fields. Cite nodes are not looked into, and
neither are the level and the attributes of a header. -/
def headers : Json → List (List (String × Json))
  | .obj fields =>
    match Node.shape fields with
    | .cite => []
    | .header =>
      match contentHeaders? fields with
      | some inner => fields :: inner
      | none => fieldHeaders fields
    | .generic => fieldHeaders fields
  | .arr items => listHeaders items
  | _ => []

/-- The headers in a list of values. -/
def listHeaders : List Json → List (List (String × Json))
  | [] => []
  | item :: rest => item.headers ++ listHeaders rest

/-- The headers in the values of fields. -/
def fieldHeaders : List (String × Json) → List (List (String × Json))
  | [] => []
  | (_, value) :: rest => value.headers ++ fieldHeaders rest

/-- The headers in the inlines of the header whose contents are among the fields, if they are shaped
like those of one. -/
def contentHeaders? : List (String × Json) → Option (List (List (String × Json)))
  | [] => none
  | (key, value) :: rest =>
    if key = "c" then
      match value with
      | .arr [_, _, .arr inlines] => some (listHeaders inlines)
      | _ => none
    else contentHeaders? rest

end

end Json

namespace Node

open Json (headers listHeaders fieldHeaders contentHeaders? PlainHeader)

/-! ## Headers -/

/-- What is put together from the contents of a header is the header itself exactly if it has no
more than the two fields, in order, and its inlines come back. -/
theorem header_toJson_eq_iff {fields : List (String × Json)} {level attributes : Json}
    {inlines : List Json} {nodes : List Node} (ht : fields.lookup "t" = some (.str "Header"))
    (hc : fields.lookup "c" = some (.arr [level, attributes, .arr inlines])) :
    (header level attributes nodes).toJson = .obj fields ↔
      PlainHeader fields ∧ listToJson nodes = inlines := by
  rw [toJson]
  constructor
  · intro h
    cases h
    cases hc
    exact ⟨rfl, rfl⟩
  · rintro ⟨hplain, rfl⟩
    obtain ⟨value, contents, rfl⟩ : ∃ value contents, fields = [("t", value), ("c", contents)] := by
      obtain ⟨⟨t, value⟩, rest, rfl, rfl, hrest⟩ := List.map_eq_cons_iff.mp hplain
      obtain ⟨⟨c, contents⟩, rest, rfl, rfl, hnil⟩ := List.map_eq_cons_iff.mp hrest
      rw [List.map_eq_nil_iff.mp hnil]
      exact ⟨value, contents, rfl⟩
    cases ht
    cases hc
    rfl

theorem contentHeaders?_eq (fields : List (String × Json)) :
    contentHeaders? fields = (contents? fields).map fun contents ↦ listHeaders contents.2.2 := by
  induction fields with
  | nil => rfl
  | cons field rest ih =>
    obtain ⟨key, value⟩ := field
    rw [Json.contentHeaders?.eq_def, contents?_cons]
    dsimp only
    by_cases hkey : key = "c"
    · rw [if_pos hkey, if_pos hkey]
      split
      · rfl
      · rename_i hshape
        have hnone : contentsOf? value = none := by
          rw [contentsOf?]
          exact hshape
        rw [hnone, Option.map_none]
    · rw [if_neg hkey, if_neg hkey]
      exact ih

theorem headers_obj (fields : List (String × Json)) :
    (Json.obj fields).headers =
      match form fields with
      | .cite => []
      | .header _ _ inlines => fields :: listHeaders inlines
      | .object => fieldHeaders fields := by
  rw [headers, form, contentHeaders?_eq]
  cases shape fields with
  | cite => rfl
  | header => rcases contents? fields with _ | ⟨level, attributes, inlines⟩ <;> rfl
  | generic => rfl

/-! ## Values -/

theorem forall₂_toJson_eq_iff {items : List Json} {nodes : List Node}
    (h : List.Forall₂ (fun item node ↦ ofJson item = .ok node ∧
      (node.toJson = item ↔ ∀ fs ∈ item.headers, PlainHeader fs)) items nodes) :
    listToJson nodes = items ↔ ∀ fs ∈ listHeaders items, PlainHeader fs := by
  induction h with
  | nil => exact iff_of_true rfl (List.forall_mem_nil _)
  | cons hitem _ ih =>
    rw [listToJson, listHeaders, List.cons.injEq, List.forall_mem_append, hitem.2, ih]

theorem forall₂_fieldsToJson_eq_iff {fields : List (String × Json)} {nodes : List (String × Node)}
    (h : List.Forall₂ (fun field node ↦ field.1 = node.1 ∧ ofJson field.2 = .ok node.2 ∧
      (node.2.toJson = field.2 ↔ ∀ fs ∈ field.2.headers, PlainHeader fs)) fields nodes) :
    fieldsToJson nodes = fields ↔ ∀ fs ∈ fieldHeaders fields, PlainHeader fs := by
  induction h with
  | nil => exact iff_of_true rfl (List.forall_mem_nil _)
  | @cons field entry _ _ hfield _ ih =>
    obtain ⟨key, value⟩ := field
    obtain ⟨name, node⟩ := entry
    obtain ⟨rfl, -, hiff⟩ := hfield
    rw [fieldsToJson, fieldHeaders, List.cons.injEq, Prod.mk.injEq, List.forall_mem_append, hiff,
      ih, eq_self, true_and]

/-- A value comes back exactly if all headers in it are written as they were read. -/
theorem toJson_eq_iff {value : Json} {node : Node} (h : ofJson value = .ok node) :
    node.toJson = value ↔ ∀ fs ∈ value.headers, PlainHeader fs := by
  have hcases : ReadingCases fun value node ↦
      (node.toJson = value ↔ ∀ fs ∈ value.headers, PlainHeader fs) := by
    refine ⟨?_, ?_, ?_, ?_, ?_⟩
    · intro fields c hform hcite
      rw [headers_obj, hform]
      exact iff_of_true (raw_of_ofJson hcite) (List.forall_mem_nil _)
    · intro fields level attributes inlines nodes hform hnodes
      have ht := shape_eq_header_iff.mp (form_eq_header hform).1
      rw [headers_obj, hform, header_toJson_eq_iff ht (lookup_of_form_eq_header hform),
        forall₂_toJson_eq_iff hnodes, List.forall_mem_cons]
    · intro fields nodes hform hnodes
      rw [headers_obj, hform, toJson, Json.obj.injEq]
      exact forall₂_fieldsToJson_eq_iff hnodes
    · intro items nodes hnodes
      rw [toJson, headers, Json.arr.injEq]
      exact forall₂_toJson_eq_iff hnodes
    · intro value hleaf
      refine iff_of_true rfl ?_
      cases value with
      | arr items => exact hleaf.elim
      | obj fields => exact hleaf.elim
      | null => exact List.forall_mem_nil _
      | bool b => exact List.forall_mem_nil _
      | num n => exact List.forall_mem_nil _
      | str s => exact List.forall_mem_nil _
  exact hcases.apply node h

theorem listToJson_eq_iff {items : List Json} {nodes : List Node}
    (h : listOfJson items = .ok nodes) :
    listToJson nodes = items ↔ ∀ fs ∈ listHeaders items, PlainHeader fs :=
  forall₂_toJson_eq_iff (forall₂_of_listOfJson h toJson_eq_iff)

end Node

/-! ## Documents -/

theorem Json.put_eq_self_iff {α : Type} {key : String} {fields : List (String × α)} {old new : α}
    (h : fields.lookup key = some old) : put key new fields = fields ↔ new = old := by
  constructor
  · intro hput
    obtain ⟨before, after, rfl, hbefore⟩ := exists_eq_append_of_lookup h
    rw [put_append_cons hbefore] at hput
    exact (Prod.mk.inj (List.cons.inj (List.append_cancel_left hput)).1).2
  · rintro rfl
    exact put_of_lookup_eq_some h

namespace Document

theorem exists_read_of_ofText {text : String} {document : Document}
    (h : ofText text = .ok document) :
    ∃ frame, Json.read? text = some (.obj frame) ∧ ofJson (.obj frame) = .ok document := by
  rw [ofText] at h
  cases hvalue : Json.read? text with
  | none =>
    rw [hvalue] at h
    cases h
  | some value =>
    rw [hvalue] at h
    cases value with
    | obj frame => exact ⟨frame, rfl, h⟩
    | null => cases h
    | bool b => cases h
    | num n => cases h
    | str s => cases h
    | arr items => cases h

theorem toJson_eq_obj_iff {frame : List (String × Json)} {document : Document} {metadata : Json}
    {items : List Json} (h : ofJson (.obj frame) = .ok document)
    (hmetadata : frame.lookup "meta" = some metadata)
    (hitems : frame.lookup "blocks" = some (.arr items)) :
    document.toJson = .obj frame ↔ ∀ fs ∈ Json.listHeaders items, Json.PlainHeader fs := by
  obtain ⟨hfields, hblocks, hframe⟩ := ofJson_eq_ok h
  have hadded : addedFields frame = [] := by rw [addedFields, hmetadata]
  have hread : Node.listOfJson items = .ok document.blocks := by
    rw [blocksOf, hitems] at hblocks
    exact Except.mapError_eq_ok.mp hblocks
  rw [toJson, hframe, put_metadataOf hfields, hadded, List.append_nil, Json.obj.injEq,
    Json.put_eq_self_iff hitems, Json.arr.injEq, Node.listToJson_eq_iff hread]

/-- **Round trips.** A document with metadata that is read and written is the same value exactly if
all headers in its blocks have the fields `t` and `c`, in this order, and no others. So are the two
texts, if what is written is read as the value that was to be written. -/
theorem toJson_eq_read_iff {text : String} {document : Document} (h : ofText text = .ok document) :
    ∃ frame items, Json.read? text = some (.obj frame) ∧
      frame.lookup "blocks" = some (.arr items) ∧
      ∀ metadata, frame.lookup "meta" = some metadata →
        (document.toJson = .obj frame ↔
          ∀ fs ∈ Json.listHeaders items, Json.PlainHeader fs) ∧
        (Json.read? document.toText = some document.toJson →
          (Json.read? document.toText = Json.read? text ↔
            ∀ fs ∈ Json.listHeaders items, Json.PlainHeader fs)) := by
  obtain ⟨frame, hvalue, hdocument⟩ := exists_read_of_ofText h
  obtain ⟨items, hitems, -⟩ := exists_lookup_of_blocksOf (ofJson_eq_ok hdocument).2.1
  refine ⟨frame, items, hvalue, hitems, fun metadata hmetadata ↦ ?_⟩
  have hiff := toJson_eq_obj_iff hdocument hmetadata hitems
  refine ⟨hiff, fun hwritten ↦ ?_⟩
  rw [hwritten, hvalue, Option.some.injEq, hiff]

/-- A document with one header that comes back as it was. -/
theorem toJson_eq_read_of_plain :
    let value : Json := .obj [("blocks", .arr [.obj [("t", .str "Header"),
      ("c", .arr [.num (.int 1), .arr [], .arr []])]]), ("meta", .obj [])]
    ∃ document, ofText value.text = .ok document ∧ document.toJson = value := by
  intro value
  have hvalue : Json.read? value.text = some value :=
    Json.read?_text (by decide +kernel) rfl rfl
  have hdocument : ofText value.text = ofJson value := by rw [ofText, hvalue]
  refine ⟨_, hdocument, ?_⟩
  obtain ⟨frame, items, hframe, hitems, hiff⟩ := toJson_eq_read_iff hdocument
  obtain rfl : frame = _ := Json.obj.inj (Option.some.inj (hframe.symm.trans hvalue))
  cases hitems
  exact (hiff _ rfl).1.mpr (by decide)

/-- A header need not come back as it was: here its fields are in the other order, and it has one
more field, which is lost. -/
theorem header_changed :
    ¬∀ (text : String) (document : Document) (frame : List (String × Json)) (metadata : Json),
      ofText text = .ok document → Json.read? text = some (.obj frame) →
      frame.lookup "meta" = some metadata → document.toJson = .obj frame := by
  intro hclaim
  let frame : List (String × Json) := [("meta", .obj []), ("blocks", .arr [.obj [
    ("c", .arr [.num (.int 1), .arr [], .arr []]), ("t", .str "Header"), ("x", .num (.int 1))]])]
  have hframe : Json.read? (Json.obj frame).text = some (.obj frame) :=
    Json.read?_text (by decide +kernel) rfl rfl
  have hdocument : ofText (Json.obj frame).text = ofJson (.obj frame) := by rw [ofText, hframe]
  have hsame := hclaim _ _ frame _ hdocument hframe rfl
  rw [@toJson_eq_obj_iff frame _ _ _ rfl rfl rfl] at hsame
  exact absurd hsame (by decide)

end Document

end CitationFilter
