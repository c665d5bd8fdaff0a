import CitationFilter.Proofs.Except
import CitationFilter.Proofs.Json.Bounds
import CitationFilter.Proofs.Library.Index
import Mathlib.Data.List.Forall2

/-!
# What an item is read from

An item is read from the fields of an object: one of them is the id, and each of the other keys
becomes a field. `Item.IsReadFrom` says so without a look at how the reader goes about it, and a
library is read if this can be said of all its elements.
-/

namespace CitationFilter

namespace Json

variable {α : Type}

theorem keys_put (key : String) (value : α) (fields : List (String × α)) :
    keys (put key value fields)
      = if key ∈ keys fields then keys fields else keys fields ++ [key] := by
  by_cases hkey : key ∈ keys fields
  · obtain ⟨field, hfield, rfl⟩ := List.mem_map.mp hkey
    have hsome : fields.lookup field.1 ≠ none := fun hnone ↦
      bne_iff_ne.mp (List.lookup_eq_none_iff.mp hnone field hfield) rfl
    obtain ⟨old, hold⟩ := Option.ne_none_iff_exists'.mp hsome
    -- the key keeps its place
    obtain ⟨before, after, rfl, hbefore⟩ := exists_eq_append_of_lookup hold
    rw [if_pos hkey, put_append_cons hbefore]
    simp [keys]
  · rw [if_neg hkey, put_of_lookup_eq_none (lookup_eq_none_of_not_mem_keys hkey)]
    simp [keys]

theorem keys_mergedFields (fields : List (String × α)) :
    keys (mergedFields fields) = distinct (keys fields) := by
  induction fields using List.reverseRecOn with
  | nil => rfl
  | append_singleton fields field ih =>
    have hkeys : keys (fields ++ [field]) = keys fields ++ [field.1] := List.map_append
    rw [mergedFields_concat, keys_put, ih, hkeys, distinct_append]
    by_cases hfield : field.1 ∈ keys fields
    · simp [distinct, hfield]
    · simp [distinct, hfield]

end Json

namespace Item

/-! ## The id -/

section Fields

variable {α : Type} {idText? : α → Option String} {fields : List (String × α)} {id : String}

theorem idOf_some_eq_ok_iff {found : String} :
    idOf idText? (some found) fields = .ok id ↔
      fields.filter (·.1 = idKey) = [] ∧ found = id := by
  induction fields with
  | nil => simp [idOf]
  | cons field rest ih =>
    obtain ⟨key, value⟩ := field
    by_cases hkey : key = idKey
    · simp [idOf, hkey]
    · simp [idOf, hkey, ih]

theorem idOf_none_eq_ok_iff :
    idOf idText? none fields = .ok id ↔
      ∃ value, fields.filter (·.1 = idKey) = [(idKey, value)] ∧ idText? value = some id := by
  induction fields with
  | nil => simp [idOf]
  | cons field rest ih =>
    obtain ⟨key, value⟩ := field
    by_cases hkey : key = idKey
    · cases htext : idText? value with
      | none => simp [idOf, hkey, htext]
      | some text => simp [idOf, hkey, htext, idOf_some_eq_ok_iff]
    · simp [idOf, hkey, ih]

/-- An item has the one id, and all other fields with repeated keys resolved. -/
theorem ofFields_eq_ok_iff {value : α → Json} {item : Item} :
    ofFields idText? value fields = .ok item ↔
      (∃ v, fields.filter (·.1 = idKey) = [(idKey, v)] ∧ idText? v = some item.id) ∧
        item.fields = Json.mergedFields
          ((fields.filter (·.1 ≠ idKey)).map fun field ↦ (field.1, value field.2)) := by
  rw [ofFields, Except.bind_eq_ok, ← idOf_none_eq_ok_iff]
  obtain ⟨id, others⟩ := item
  constructor
  · rintro ⟨_, hid, ⟨⟩⟩
    exact ⟨hid, rfl⟩
  · rintro ⟨hid, rfl⟩
    exact ⟨id, hid, rfl⟩

end Fields

/-! ## Items in JSON -/

/-- The item is what the fields of an object say: its id is the only field with the key of ids, and
its own fields are the others, a key where it first occurs with the value that it has last. -/
structure IsReadFrom (item : Item) (fields : List (String × Json)) : Prop where
  id : ∃ value, fields.filter (·.1 = idKey) = [(idKey, value)] ∧ idText? value = some item.id
  keys : Json.keys item.fields = distinct ((Json.keys fields).filter (· ≠ idKey))
  values : ∀ key ≠ idKey, item.fields.lookup key = (fields.reverse.lookup key).map Json.merged

/-- Fields other than the id are found where they were. -/
theorem lookup_others {fields : List (String × Json)} {key : String} (hkey : key ≠ idKey) :
    (((fields.filter (·.1 ≠ idKey)).map fun field ↦ (field.1, field.2.merged)).reverse.lookup key)
      = (fields.reverse.lookup key).map Json.merged := by
  have hkeep := Json.lookup_filter (fun name ↦ name ≠ idKey) (decide_eq_true hkey) fields.reverse
  rw [← List.map_reverse, ← List.filter_reverse, Json.lookup_map_values, hkeep]

theorem lookup_id {fields : List (String × Json)} {value : Json}
    (h : fields.filter (·.1 = idKey) = [(idKey, value)]) :
    fields.reverse.lookup idKey = some value := by
  have hkeep := Json.lookup_filter (fun name ↦ name = idKey) (decide_eq_true rfl) fields.reverse
  rw [← hkeep, List.filter_reverse, h]
  rfl

theorem IsReadFrom.nodup_keys {item : Item} {fields : List (String × Json)}
    (h : item.IsReadFrom fields) : (Json.keys item.fields).Nodup := by
  rw [h.keys]
  exact nodup_distinct _

theorem IsReadFrom.ne_idKey {item : Item} {fields : List (String × Json)}
    (h : item.IsReadFrom fields) : ∀ key ∈ Json.keys item.fields, key ≠ idKey := by
  intro key hkey
  rw [h.keys, mem_distinct, List.mem_filter] at hkey
  exact of_decide_eq_true hkey.2

theorem ofJson_obj_eq_ok_iff {fields : List (String × Json)} {item : Item} :
    ofJson (.obj fields) = .ok item ↔ item.IsReadFrom fields := by
  have hkeys : Json.keys (Json.mergedFields
      ((fields.filter (·.1 ≠ idKey)).map fun field ↦ (field.1, field.2.merged)))
        = distinct ((Json.keys fields).filter (· ≠ idKey)) := by
    rw [Json.keys_mergedFields, Json.keys, Json.keys, List.map_map, List.filter_map]
    rfl
  have hvalues : ∀ key ≠ idKey, (Json.mergedFields
      ((fields.filter (·.1 ≠ idKey)).map fun field ↦ (field.1, field.2.merged))).lookup key
        = (fields.reverse.lookup key).map Json.merged := fun key hkey ↦ by
    rw [Json.lookup_mergedFields, lookup_others hkey]
  rw [ofJson, ofFields_eq_ok_iff]
  constructor
  · rintro ⟨hid, hfields⟩
    exact ⟨hid, hfields ▸ hkeys, hfields ▸ hvalues⟩
  · intro h
    refine ⟨h.id, Json.eq_of_keys_eq (h.keys.trans hkeys.symm) (Json.nodup_keys_mergedFields _) ?_⟩
    intro key hkey
    rw [hkeys, ← h.keys] at hkey
    rw [h.values key (h.ne_idKey key hkey), hvalues key (h.ne_idKey key hkey)]

theorem ofJson_eq_ok_iff {value : Json} {item : Item} :
    ofJson value = .ok item ↔ ∃ fields, value = .obj fields ∧ item.IsReadFrom fields := by
  constructor
  · intro h
    cases value with
    | obj fields => exact ⟨fields, rfl, ofJson_obj_eq_ok_iff.mp h⟩
    | _ => cases h
  · rintro ⟨fields, rfl, h⟩
    exact ofJson_obj_eq_ok_iff.mpr h

/-- The value is an object with exactly one id, which is a text or a number. -/
def Identified (value : Json) : Prop :=
  ∃ fields id, value = .obj fields ∧ fields.filter (·.1 = idKey) = [(idKey, id)] ∧
    ((∃ s, id = .str s) ∨ ∃ n, id = .num n)

theorem isSome_idText?_iff {id : Json} :
    (∃ text, idText? id = some text) ↔ (∃ s, id = .str s) ∨ ∃ n, id = .num n := by
  cases id <;> simp [idText?]

theorem exists_ofJson_iff {value : Json} :
    (∃ item, ofJson value = .ok item) ↔ Identified value := by
  constructor
  · rintro ⟨item, h⟩
    obtain ⟨fields, rfl, hread⟩ := ofJson_eq_ok_iff.mp h
    obtain ⟨id, hid, htext⟩ := hread.id
    exact ⟨fields, id, rfl, hid, isSome_idText?_iff.mp ⟨_, htext⟩⟩
  · rintro ⟨fields, id, rfl, hid, hkind⟩
    obtain ⟨text, htext⟩ := isSome_idText?_iff.mpr hkind
    exact ⟨⟨text, _⟩, ofFields_eq_ok_iff.mpr ⟨⟨id, hid, htext⟩, rfl⟩⟩

/-! ## Libraries in JSON -/

theorem listOfJsonText_eq_ok_iff {text : String} {items : List Item} :
    listOfJsonText text = .ok items ↔
      ∃ values, Json.readAll? text = some (.arr values) ∧
        List.Forall₂ (fun value item ↦ ofJson value = .ok item) values items := by
  rw [listOfJsonText]
  cases Json.readAll? text with
  | none => simp
  | some value =>
    dsimp only
    rw [Except.mapError_eq_ok, Json.asList, Except.bind_eq_ok]
    constructor
    · rintro ⟨values, hvalues, h⟩
      rw [Json.asItems.eq_def] at hvalues
      split at hvalues
      · cases hvalues
        exact ⟨values, rfl, Except.mapM_eq_ok_iff.mp h⟩
      · cases hvalues
    · rintro ⟨values, ⟨⟩, h⟩
      exact ⟨values, rfl, Except.mapM_eq_ok_iff.mpr h⟩

/-- What a key of an element has last fits in there, two containers inside. -/
theorem fits_last {text : String} {values : List Json} {fields : List (String × Json)}
    (hvalues : Json.readAll? text = some (.arr values)) (hfields : .obj fields ∈ values)
    {key : String} {value : Json} (hlast : fields.reverse.lookup key = some value) :
    Json.Fits Json.Number.IsRead (Json.Reader.deepest - 2) value.merged :=
  Json.fits_of_merged_obj (Json.fits_of_merged_arr (Json.fits_of_readAll? hvalues) _ hfields) hlast

/-- Whatever is wrong with a library, it is reported as a fault of the library. -/
theorem exists_library_of_listOfJsonText {text : String} {e : Error}
    (h : listOfJsonText text = .error e) : ∃ fault, e = .library fault := by
  rw [listOfJsonText] at h
  cases hread : Json.readAll? text with
  | none =>
    rw [hread] at h
    cases h
    exact ⟨_, rfl⟩
  | some value =>
    rw [hread] at h
    obtain ⟨fault, -, rfl⟩ := Except.mapError_eq_error.mp h
    exact ⟨_, rfl⟩

theorem exists_listOfJsonText_iff {text : String} :
    (∃ items, listOfJsonText text = .ok items) ↔
      ∃ values, Json.readAll? text = some (.arr values) ∧ ∀ value ∈ values, Identified value := by
  constructor
  · rintro ⟨items, h⟩
    obtain ⟨values, hvalues, hitems⟩ := listOfJsonText_eq_ok_iff.mp h
    refine ⟨values, hvalues, fun value hvalue ↦ ?_⟩
    obtain ⟨i, rfl⟩ := List.get_of_mem hvalue
    exact exists_ofJson_iff.mp ⟨_, hitems.get i.isLt (hitems.length_eq ▸ i.isLt)⟩
  · rintro ⟨values, hvalues, hall⟩
    obtain ⟨items, hitems⟩ := Except.exists_mapM_eq_ok_iff.mpr fun value hvalue ↦
      exists_ofJson_iff.mpr (hall value hvalue)
    exact ⟨items, listOfJsonText_eq_ok_iff.mpr ⟨values, hvalues, Except.mapM_eq_ok_iff.mp hitems⟩⟩

end Item

end CitationFilter
