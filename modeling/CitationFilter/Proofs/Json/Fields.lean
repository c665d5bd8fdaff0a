import CitationFilter.Json.Basic
import Mathlib.Data.List.Forall2
import Mathlib.Data.List.Induction
import Mathlib.Data.List.Nodup

/-!
# Fields with one value per key

`Json.put` changes the value of a key in its place, or adds the key at the end. So it never repeats
a key, and the fields that come out of `Json.mergedFields` have distinct keys; fields that have
distinct keys already are left as they are.
-/

namespace CitationFilter

namespace Json

variable {α : Type} {key : String} {before fields : List (String × α)}

/-- The first field decides, unless it has another key. -/
theorem lookup_cons_eq_ite (name : String) (value : α) (rest : List (String × α)) :
    ((name, value) :: rest).lookup key = if name = key then some value else rest.lookup key := by
  rw [List.lookup_cons]
  by_cases hname : name = key
  · rw [if_pos hname, hname, beq_self_eq_true]
  · rw [if_neg hname, beq_eq_false_iff_ne.mpr (Ne.symm hname)]

/-- In two lists of fields with the same keys, a key finds values that belong together. -/
theorem rel_lookup {β : Type} {r : α → β → Prop} {others : List (String × β)}
    (h : List.Forall₂ (fun field other ↦ field.1 = other.1 ∧ r field.2 other.2) fields others)
    (key : String) : Option.Rel r (fields.lookup key) (others.lookup key) := by
  induction h with
  | nil => exact .none
  | @cons field other rest others hfield _ ih =>
    obtain ⟨name, value⟩ := field
    obtain ⟨name', value'⟩ := other
    obtain ⟨rfl, hvalue⟩ := hfield
    rw [lookup_cons_eq_ite, lookup_cons_eq_ite]
    split
    · exact .some hvalue
    · exact ih

/-! ## Giving a key a value -/

theorem put_append_cons (h : ∀ field ∈ before, field.1 ≠ key) (old new : α)
    (after : List (String × α)) :
    put key new (before ++ (key, old) :: after) = before ++ (key, new) :: after := by
  induction before with
  | nil => exact if_pos rfl
  | cons field rest ih =>
    obtain ⟨hfield, hrest⟩ := List.forall_mem_cons.mp h
    rw [List.cons_append, put, if_neg hfield, ih hrest, List.cons_append]

theorem put_of_lookup_eq_none {fields : List (String × α)} (h : fields.lookup key = none)
    (new : α) : put key new fields = fields ++ [(key, new)] := by
  induction fields with
  | nil => rfl
  | cons field rest ih =>
    obtain ⟨name, value⟩ := field
    rw [List.lookup_cons] at h
    split at h
    · cases h
    · rename_i hne
      rw [put, if_neg (fun heq ↦ by simp [heq] at hne), ih h, List.cons_append]

theorem exists_eq_append_of_lookup {fields : List (String × α)} {value : α}
    (h : fields.lookup key = some value) :
    ∃ before after, fields = before ++ (key, value) :: after ∧ ∀ field ∈ before, field.1 ≠ key := by
  obtain ⟨before, after, rfl, hbefore⟩ := List.lookup_eq_some_iff.mp h
  refine ⟨before, after, rfl, fun field hfield heq ↦ ?_⟩
  have hne := hbefore field hfield
  rw [heq] at hne
  simp at hne

theorem put_of_lookup_eq_some {fields : List (String × α)} {value : α}
    (h : fields.lookup key = some value) : put key value fields = fields := by
  obtain ⟨before, after, rfl, hbefore⟩ := exists_eq_append_of_lookup h
  exact put_append_cons hbefore value value after

theorem lookup_put_self (key : String) (value : α) (fields : List (String × α)) :
    (put key value fields).lookup key = some value := by
  induction fields with
  | nil => rw [put, List.lookup_cons_self]
  | cons field rest ih =>
    obtain ⟨name, old⟩ := field
    rw [put]
    by_cases hname : name = key
    · rw [if_pos hname, List.lookup_cons_self]
    · have hne : (key == name) = false := beq_eq_false_iff_ne.mpr (Ne.symm hname)
      rw [if_neg hname, List.lookup_cons, hne]
      exact ih

theorem lookup_put_of_ne {other : String} (h : other ≠ key) (value : α)
    (fields : List (String × α)) : (put key value fields).lookup other = fields.lookup other := by
  induction fields with
  | nil =>
    have hne : (other == key) = false := beq_eq_false_iff_ne.mpr h
    rw [put, List.lookup_cons, hne]
  | cons field rest ih =>
    obtain ⟨name, old⟩ := field
    rw [put]
    by_cases hname : name = key
    · have hne : (other == key) = false := beq_eq_false_iff_ne.mpr h
      rw [if_pos hname, List.lookup_cons, List.lookup_cons, hname, hne]
    · rw [if_neg hname, List.lookup_cons, List.lookup_cons, ih]

/-- The last value of a key is the one that counts. -/
theorem put_put (key : String) (old new : α) (fields : List (String × α)) :
    put key new (put key old fields) = put key new fields := by
  induction fields with
  | nil => exact if_pos rfl
  | cons field rest ih =>
    obtain ⟨name, value⟩ := field
    by_cases hname : name = key
    · rw [put, if_pos hname, put, if_pos rfl, put, if_pos hname]
    · rw [put, if_neg hname, put, if_neg hname, put, if_neg hname, ih]

/-- A key that is there can be given its value before or after another key. -/
theorem put_put_comm {other : String} {old : α} (h : fields.lookup key = some old)
    (hne : other ≠ key) (value new : α) :
    put other value (put key new fields) = put key new (put other value fields) := by
  induction fields with
  | nil => cases h
  | cons field rest ih =>
    obtain ⟨name, first⟩ := field
    by_cases hname : name = key
    · obtain rfl := hname
      rw [put, if_pos rfl, put, if_neg (Ne.symm hne), put, if_neg (Ne.symm hne), put, if_pos rfl]
    · have hrest : rest.lookup key = some old := by
        rwa [List.lookup_cons, beq_eq_false_iff_ne.mpr (Ne.symm hname)] at h
      rw [put, if_neg hname]
      by_cases hother : name = other
      · rw [put, if_pos hother, put, if_pos hother, put, if_neg hne]
      · rw [put, if_neg hother, put, if_neg hother, put, if_neg hname, ih hrest]

/-! ## Keys -/

/-- The keys of some fields, in order. -/
def keys (fields : List (String × α)) : List String := fields.map Prod.fst

theorem lookup_eq_none_of_not_mem_keys (h : key ∉ keys fields) : fields.lookup key = none := by
  rw [List.lookup_eq_none_iff]
  intro field hfield
  have hne : key ≠ field.1 := fun heq ↦ h (List.mem_map.mpr ⟨field, hfield, heq.symm⟩)
  exact bne_iff_ne.mpr hne

/-- A key that has been put is the only one that may be new. -/
theorem mem_of_mem_put {value : α} {field : String × α} (h : field ∈ put key value fields) :
    field = (key, value) ∨ field ∈ fields := by
  induction fields with
  | nil => exact Or.inl (List.mem_singleton.mp h)
  | cons first rest ih =>
    obtain ⟨name, old⟩ := first
    rw [put] at h
    split at h
    · rcases List.mem_cons.mp h with heq | hrest
      · exact Or.inl heq
      · exact Or.inr (List.mem_cons_of_mem _ hrest)
    · rcases List.mem_cons.mp h with rfl | hrest
      · exact Or.inr List.mem_cons_self
      · exact (ih hrest).imp_right (List.mem_cons_of_mem _)

theorem nodup_keys_put (h : (keys fields).Nodup) (key : String) (value : α) :
    (keys (put key value fields)).Nodup := by
  cases hlookup : fields.lookup key with
  | none =>
    rw [put_of_lookup_eq_none hlookup, keys, List.map_append]
    refine h.append (List.nodup_singleton key) fun name hname hkey ↦ ?_
    obtain ⟨field, hfield, rfl⟩ := List.mem_map.mp hname
    rw [List.lookup_eq_none_iff] at hlookup
    have hne : key ≠ field.1 := bne_iff_ne.mp (hlookup field hfield)
    exact hne (List.mem_singleton.mp hkey).symm
  | some old =>
    -- the key keeps its place, so the keys are the same as before
    obtain ⟨before, after, rfl, hbefore⟩ := exists_eq_append_of_lookup hlookup
    rw [put_append_cons hbefore]
    simpa [keys] using h

/-! ## Resolving repeated keys -/

theorem nodup_keys_mergedFields (fields : List (String × α)) :
    (keys (mergedFields fields)).Nodup := by
  refine List.foldlRecOn (motive := fun merged ↦ (keys merged).Nodup) fields _ List.nodup_nil ?_
  intro merged hmerged field _
  exact nodup_keys_put hmerged field.1 field.2

theorem mem_of_mem_mergedFields {field : String × α} (h : field ∈ mergedFields fields) :
    field ∈ fields := by
  have hall : ∀ f ∈ mergedFields fields, f ∈ fields := by
    refine List.foldlRecOn (motive := fun merged ↦ ∀ f ∈ merged, f ∈ fields) fields _
      (List.forall_mem_nil _) ?_
    intro merged hmerged next hnext f hf
    rcases mem_of_mem_put hf with rfl | hold
    · exact hnext
    · exact hmerged f hold
  exact hall field h

theorem mergedFields_concat (fields : List (String × α)) (field : String × α) :
    mergedFields (fields ++ [field]) = put field.1 field.2 (mergedFields fields) := by
  rw [mergedFields, List.foldl_append]
  rfl

/-- A key gets the last one of its values. -/
theorem lookup_mergedFields (key : String) (fields : List (String × α)) :
    (mergedFields fields).lookup key = fields.reverse.lookup key := by
  induction fields using List.reverseRecOn with
  | nil => rfl
  | append_singleton fields field ih =>
    rw [mergedFields_concat, List.reverse_concat, List.lookup_cons]
    by_cases hkey : key = field.1
    · rw [hkey, lookup_put_self, beq_self_eq_true]
    · rw [lookup_put_of_ne hkey, ih, beq_eq_false_iff_ne.mpr hkey]

theorem lookup_of_mem (h : (keys fields).Nodup) {field : String × α} (hfield : field ∈ fields) :
    fields.lookup field.1 = some field.2 := by
  induction fields with
  | nil => cases hfield
  | cons first rest ih =>
    obtain ⟨hnew, hrest⟩ := List.nodup_cons.mp h
    rcases List.mem_cons.mp hfield with rfl | hmem
    · exact List.lookup_cons_self
    · have hne : field.1 ≠ first.1 := fun heq ↦
        hnew (heq ▸ List.mem_map_of_mem (f := Prod.fst) hmem)
      rw [List.lookup_cons, beq_eq_false_iff_ne.mpr hne]
      exact ih hrest hmem

theorem lookup_map_values {β : Type} (f : α → β) (key : String) (fields : List (String × α)) :
    (fields.map fun field ↦ (field.1, f field.2)).lookup key = (fields.lookup key).map f := by
  induction fields with
  | nil => rfl
  | cons field rest ih =>
    rw [List.map_cons, List.lookup_cons, List.lookup_cons, ih]
    cases key == field.1 with
    | true => rfl
    | false => rfl

theorem lookup_filter (keep : String → Bool) (hkey : keep key = true)
    (fields : List (String × α)) :
    (fields.filter fun field ↦ keep field.1).lookup key = fields.lookup key := by
  induction fields with
  | nil => rfl
  | cons field rest ih =>
    by_cases hfield : keep field.1 = true
    · rw [List.filter_cons_of_pos (by exact hfield), List.lookup_cons, List.lookup_cons, ih]
    · have hne : key ≠ field.1 := fun heq ↦ hfield (heq ▸ hkey)
      rw [List.filter_cons_of_neg (by exact hfield), List.lookup_cons, beq_eq_false_iff_ne.mpr hne,
        ih]

theorem mem_of_lookup {value : α} (h : fields.lookup key = some value) : (key, value) ∈ fields := by
  obtain ⟨before, after, rfl, -⟩ := exists_eq_append_of_lookup h
  exact List.mem_append_right _ List.mem_cons_self

/-- Fields with distinct keys are given by their keys and the value of each key. -/
theorem eq_of_keys_eq {others : List (String × α)} (hkeys : keys fields = keys others)
    (hnodup : (keys others).Nodup)
    (h : ∀ key ∈ keys others, fields.lookup key = others.lookup key) : fields = others := by
  have hmap : ∀ list : List (String × α), (keys list).Nodup →
      list.map (fun field ↦ (field.1, some field.2))
        = (keys list).map fun key ↦ (key, list.lookup key) := by
    intro list hlist
    rw [keys, List.map_map]
    exact List.map_congr_left fun field hfield ↦ by
      rw [Function.comp_apply, lookup_of_mem hlist hfield]
  have hsome : Function.Injective fun field : String × α ↦ (field.1, some field.2) := by
    rintro ⟨k, a⟩ ⟨k', a'⟩ heq
    simpa using heq
  refine List.map_injective_iff.mpr hsome ?_
  rw [hmap fields (hkeys ▸ hnodup), hmap others hnodup, hkeys]
  exact List.map_congr_left fun key hkey ↦ by rw [h key hkey]

theorem mergedFields_eq_self (h : (keys fields).Nodup) : mergedFields fields = fields := by
  have hfold : ∀ (rest merged : List (String × α)), (keys (merged ++ rest)).Nodup →
      rest.foldl (fun merged field ↦ put field.1 field.2 merged) merged = merged ++ rest := by
    intro rest
    induction rest with
    | nil => exact fun merged _ ↦ (List.append_nil merged).symm
    | cons field rest ih =>
      intro merged hnodup
      have hnew : field.1 ∉ keys merged := by
        rw [keys, List.map_append] at hnodup
        exact fun hmem ↦ hnodup.disjoint hmem List.mem_cons_self
      have hput : put field.1 field.2 merged = merged ++ [field] :=
        put_of_lookup_eq_none (lookup_eq_none_of_not_mem_keys hnew) field.2
      rw [List.append_cons] at hnodup ⊢
      rw [List.foldl_cons, hput]
      exact ih _ hnodup
  exact hfold fields [] h

end Json

end CitationFilter
