import CitationFilter.Library.Store

/-!
# Looking up items in the store

An item is found exactly under the ids that the store lists, and a lookup that fails names the id
that was asked for.
-/

namespace CitationFilter

namespace Store

variable {store : Store} {id : String}

theorem mem_ids_iff : id ∈ store.ids ↔ ∃ item ∈ store.items, item.id = id := by
  rw [ids, mem_distinct, List.mem_map]

theorem isSome_position?_iff : (store.position? id).isSome ↔ id ∈ store.ids := by
  rw [position?, List.isSome_findFinIdx?, List.any_eq_true, mem_ids_iff]
  simp

theorem exists_retrieve_of_mem (h : id ∈ store.ids) : ∃ item, store.retrieve id = .ok item := by
  obtain ⟨i, hi⟩ := Option.isSome_iff_exists.mp (isSome_position?_iff.mpr h)
  exact ⟨store.items[i], by rw [retrieve, hi]⟩

theorem retrieve_of_not_mem (h : id ∉ store.ids) :
    store.retrieve id = .error (.itemNotFound id) := by
  have hnone : store.position? id = none := by
    rw [← isSome_position?_iff, Option.not_isSome_iff_eq_none] at h
    exact h
  rw [retrieve, hnone]

theorem exists_retrieve_iff : (∃ item, store.retrieve id = .ok item) ↔ id ∈ store.ids := by
  refine ⟨?_, exists_retrieve_of_mem⟩
  rintro ⟨item, hitem⟩
  by_cases hid : id ∈ store.ids
  · exact hid
  · rw [retrieve_of_not_mem hid] at hitem
    cases hitem

/-- The only way in which a lookup fails. -/
theorem retrieve_eq_error_iff {e : Error} :
    store.retrieve id = .error e ↔ id ∉ store.ids ∧ e = .itemNotFound id := by
  constructor
  · intro h
    have hid : id ∉ store.ids := by
      rw [← exists_retrieve_iff, h]
      rintro ⟨item, ⟨⟩⟩
    rw [retrieve_of_not_mem hid] at h
    exact ⟨hid, (Except.error.inj h).symm⟩
  · rintro ⟨hid, rfl⟩
    exact retrieve_of_not_mem hid

theorem retrieve_eq_find? (store : Store) (id : String) :
    store.retrieve id =
      match store.items.find? fun item ↦ item.id = id with
      | some item => .ok item
      | none => .error (.itemNotFound id) := by
  cases hfind : store.items.find? fun item ↦ item.id = id with
  | none =>
    refine retrieve_of_not_mem fun hid ↦ ?_
    obtain ⟨item, hmem, hitem⟩ := mem_ids_iff.mp hid
    exact List.find?_eq_none.mp hfind item hmem (decide_eq_true hitem)
  | some item =>
    obtain ⟨hid, i, hi, hitem, hfirst⟩ := List.find?_eq_some_iff_getElem.mp hfind
    have hposition : store.position? id = some ⟨i, hi⟩ := by
      rw [position?, List.findFinIdx?_eq_some_iff]
      refine ⟨by simpa [hitem] using hid, fun j hj ↦ ?_⟩
      simpa using hfirst j hj
    rw [retrieve, hposition]
    exact congrArg Except.ok hitem

theorem retrieve_of_first {i : Nat} {item : Item}
    (hitem : store.items[i]? = some item) (hid : item.id = id)
    (hfirst : ∀ earlier ∈ store.items.take i, earlier.id ≠ id) : store.retrieve id = .ok item := by
  obtain ⟨hi, hget⟩ := List.getElem?_eq_some_iff.mp hitem
  have hfind : store.items.find? (fun item ↦ item.id = id) = some item := by
    rw [List.find?_eq_some_iff_getElem]
    refine ⟨decide_eq_true hid, i, hi, hget, fun j hj ↦ ?_⟩
    have hearlier : store.items[j] ∈ store.items.take i :=
      List.mem_take_iff_getElem.mpr ⟨j, by omega, rfl⟩
    simpa using hfirst _ hearlier
  rw [retrieve_eq_find?, hfind]

theorem id_of_retrieve {item : Item} (h : store.retrieve id = .ok item) : item.id = id := by
  rw [retrieve_eq_find?] at h
  split at h
  · rename_i found hfind
    cases h
    simpa using List.find?_some hfind
  · cases h

end Store

end CitationFilter
