import CitationFilter.Proofs.Document.Citations
import CitationFilter.Proofs.Json.Reread

/-!
# Written trees fit

A tree that was read from a value that fits is written as a value that fits, also when other values
have taken the places of its cite nodes. The room for them is the room that the cite nodes had: a
cite node holds the list of its citations three containers deep.
-/

namespace CitationFilter

namespace Json

variable {wanted : Number → Prop} {n : Nat}

/-! ## Parts of values that fit -/

theorem Fits.exists_eq_succ_of_arr {items : List Json} (h : Fits wanted n (.arr items)) :
    ∃ m, n = m + 1 ∧ ∀ item ∈ items, Fits wanted m item := by
  cases h with
  | arr hitems => exact ⟨_, rfl, hitems⟩

theorem Fits.exists_eq_succ_of_obj {fields : List (String × Json)}
    (h : Fits wanted n (.obj fields)) :
    ∃ m, n = m + 1 ∧ (keys fields).Nodup ∧ ∀ field ∈ fields, Fits wanted m field.2 := by
  cases h with
  | obj hkeys hfields => exact ⟨_, rfl, hkeys, hfields⟩

theorem Fits.exists_eq_succ_of_lookup {fields : List (String × Json)} {key : String} {value : Json}
    (h : Fits wanted n (.obj fields)) (hvalue : fields.lookup key = some value) :
    ∃ m, n = m + 1 ∧ Fits wanted m value := by
  obtain ⟨m, rfl, -, hfields⟩ := h.exists_eq_succ_of_obj
  obtain ⟨before, after, rfl, -⟩ := exists_eq_append_of_lookup hvalue
  exact ⟨m, rfl, hfields _ (List.mem_append_right _ List.mem_cons_self)⟩

/-- An element that is written with its tag and its contents. -/
theorem Fits.element {tag : String} {contents : Json} (h : Fits wanted n contents) :
    Fits wanted (n + 1) (.obj [("t", .str tag), ("c", contents)]) := by
  have hkeys : ["t", "c"].Nodup := by decide
  exact .obj hkeys (List.forall_mem_cons.mpr ⟨.str, List.forall_mem_singleton.mpr h⟩)

end Json

namespace Node

open Json (Fits keys)

variable {wanted : Json.Number → Prop} {n : Nat}

/-- A cite node that fits has room for three containers, one inside the other. -/
theorem exists_eq_add_three_of_cite {raw : Json} {c : Cite} (hcite : Cite.ofJson raw = .ok c)
    (h : Fits wanted n raw) : ∃ m, n = m + 3 := by
  obtain ⟨-, fields, items, rest, rfl, hlookup, -⟩ := Cite.ofJson_eq_ok_iff.mp hcite
  obtain ⟨m, rfl, hcontents⟩ := h.exists_eq_succ_of_lookup hlookup
  obtain ⟨m, rfl, hparts⟩ := hcontents.exists_eq_succ_of_arr
  obtain ⟨m, rfl, -⟩ := (hparts _ List.mem_cons_self).exists_eq_succ_of_arr
  exact ⟨m, rfl⟩

section Filled

variable {nodes : List Node}

/-- A filled tree fits where the value fits from which the tree was read. -/
def FitsByFilling (wanted : Json.Number → Prop) (value : Json) (node : Node) : Prop :=
  ∀ (n : Nat) (nodes : List Node), Fits wanted n value →
    (∀ r ∈ nodes, Fits wanted 3 r.toJson) → Fits wanted n (node.filled nodes).toJson

theorem fits_listFilled {items : List Json} {list : List Node}
    (h : List.Forall₂ (fun item node ↦ ofJson item = .ok node ∧ FitsByFilling wanted item node)
      items list)
    (hitems : ∀ item ∈ items, Fits wanted n item) (hnodes : ∀ r ∈ nodes, Fits wanted 3 r.toJson) :
    ∀ item ∈ listToJson (listFilled list nodes), Fits wanted n item := by
  induction h generalizing nodes with
  | nil => exact List.forall_mem_nil _
  | @cons item node _ _ hitem _ ih =>
    obtain ⟨hfits, hrest⟩ := List.forall_mem_cons.mp hitems
    rw [listFilled, listToJson, List.forall_mem_cons]
    exact ⟨hitem.2 n nodes hfits hnodes, ih hrest (forall_mem_drop hnodes _)⟩

theorem fits_fieldFilled {fields : List (String × Json)} {list : List (String × Node)}
    (h : List.Forall₂ (fun field node ↦ field.1 = node.1 ∧ ofJson field.2 = .ok node.2 ∧
      FitsByFilling wanted field.2 node.2) fields list)
    (hfields : ∀ field ∈ fields, Fits wanted n field.2)
    (hnodes : ∀ r ∈ nodes, Fits wanted 3 r.toJson) :
    ∀ field ∈ fieldsToJson (fieldFilled list nodes), Fits wanted n field.2 := by
  induction h generalizing nodes with
  | nil => exact List.forall_mem_nil _
  | @cons field entry _ _ hfield _ ih =>
    obtain ⟨key, node⟩ := entry
    obtain ⟨hfits, hrest⟩ := List.forall_mem_cons.mp hfields
    rw [fieldFilled, fieldsToJson, List.forall_mem_cons]
    exact ⟨hfield.2.2 n nodes hfits hnodes, ih hrest (forall_mem_drop hnodes _)⟩

theorem keys_fieldFilled {fields : List (String × Json)} {list : List (String × Node)}
    (h : List.Forall₂ (fun field node ↦ field.1 = node.1) fields list) :
    keys (fieldsToJson (fieldFilled list nodes)) = keys fields := by
  induction h generalizing nodes with
  | nil => rfl
  | @cons field entry _ _ hfield _ ih =>
    obtain ⟨key, node⟩ := entry
    rw [fieldFilled, fieldsToJson]
    exact congrArg₂ List.cons hfield.symm ih

theorem fitsByFilling {value : Json} {node : Node} (h : ofJson value = .ok node) :
    FitsByFilling wanted value node := by
  have hcases : ReadingCases (FitsByFilling wanted) := by
    refine ⟨?_, ?_, ?_, ?_, ?_⟩
    · intro fields c _ hcite n nodes hfits hnodes
      obtain ⟨m, rfl⟩ := exists_eq_add_three_of_cite hcite hfits
      cases nodes with
      | nil =>
        rw [filled, List.headD_nil, toJson, raw_of_ofJson hcite]
        exact hfits
      | cons first rest =>
        exact (hnodes first List.mem_cons_self).mono (Nat.le_add_left 3 m)
    · intro fields level attributes inlines list hform hlist n nodes hfits hnodes
      -- the header is written around its inlines just as deep as it was read
      obtain ⟨m, rfl, hcontents⟩ := hfits.exists_eq_succ_of_lookup (lookup_of_form_eq_header hform)
      obtain ⟨m, rfl, hparts⟩ := hcontents.exists_eq_succ_of_arr
      rw [List.forall_mem_cons, List.forall_mem_cons, List.forall_mem_singleton] at hparts
      obtain ⟨hlevel, hattributes, hinlines⟩ := hparts
      obtain ⟨m, rfl, hitems⟩ := hinlines.exists_eq_succ_of_arr
      have hwritten := Fits.arr (fits_listFilled hlist hitems hnodes)
      have hcontents := Fits.arr (List.forall_mem_cons.mpr ⟨hlevel,
        List.forall_mem_cons.mpr ⟨hattributes, List.forall_mem_singleton.mpr hwritten⟩⟩)
      exact .element hcontents
    · intro fields list hform hlist n nodes hfits hnodes
      obtain ⟨m, rfl, hkeys, hfields⟩ := hfits.exists_eq_succ_of_obj
      refine .obj ?_ (fits_fieldFilled hlist hfields hnodes)
      rwa [keys_fieldFilled (hlist.imp fun _ _ hfield ↦ hfield.1)]
    · intro items list hlist n nodes hfits hnodes
      obtain ⟨m, rfl, hitems⟩ := hfits.exists_eq_succ_of_arr
      exact .arr (fits_listFilled hlist hitems hnodes)
    · intro value _ n nodes hfits _
      exact hfits
  exact hcases.apply node h

theorem forall_fits_listFilled {items : List Json} {list : List Node}
    (h : listOfJson items = .ok list) (hitems : ∀ item ∈ items, Fits wanted n item)
    (hnodes : ∀ r ∈ nodes, Fits wanted 3 r.toJson) :
    ∀ node ∈ listFilled list nodes, Fits wanted n node.toJson := by
  have hlist := forall₂_of_listOfJson (motive := FitsByFilling wanted) h fitsByFilling
  have hfits := fits_listFilled hlist hitems hnodes
  rw [listToJson_eq_map] at hfits
  exact List.forall_mem_map.mp hfits

end Filled

end Node

end CitationFilter
