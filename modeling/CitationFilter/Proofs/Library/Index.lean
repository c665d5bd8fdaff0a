import CitationFilter.Proofs.Library.Store
import Mathlib.Data.List.Basic

/-!
# The index of a store

A store is asked in two ways: for the list of its ids, and for single items. Both answers can be
given from one index, which maps an id to the place of an item and is filled from the items in
order, each id only once. An item is then found without a search, and its id is listed exactly if
the index leads back to that very item.

The store itself is defined without the index: it searches the items, and it lists the ids by
`distinct`. That the three agree is what this file is about. They all speak of the first occurrence
of an id, and `List.idxOf` is the measure in which they are compared.
-/

namespace CitationFilter

/-! ## First occurrences -/

section Distinct

variable {α : Type} [DecidableEq α]

/-- The elements come in the order in which they first occur. -/
theorem pairwise_idxOf_distinct (l : List α) :
    (distinct l).Pairwise fun a b ↦ l.idxOf a < l.idxOf b := by
  induction l with
  | nil => exact List.Pairwise.nil
  | cons a rest ih =>
    have hlater : ∀ b, b ≠ a → (a :: rest).idxOf b = rest.idxOf b + 1 := fun b hb ↦
      List.idxOf_cons_ne rest hb.symm
    rw [distinct, List.pairwise_cons]
    constructor
    · intro b hb
      have hne : b ≠ a := by simpa using (List.mem_filter.mp hb).2
      rw [List.idxOf_cons_self, hlater b hne]
      exact Nat.succ_pos _
    · refine (ih.filter _).imp_of_mem fun {b c} hb hc hlt ↦ ?_
      have hb' : b ≠ a := by simpa using (List.mem_filter.mp hb).2
      have hc' : c ≠ a := by simpa using (List.mem_filter.mp hc).2
      rw [hlater b hb', hlater c hc']
      exact Nat.succ_lt_succ hlt

/-- An element is kept exactly where it first occurs. -/
theorem distinct_eq_filter_zipIdx (l : List α) (start : Nat) :
    distinct l = ((l.zipIdx start).filter fun entry ↦ l.idxOf entry.1 + start = entry.2).map
      Prod.fst := by
  induction l generalizing start with
  | nil => rfl
  | cons a rest ih =>
    have hrest : ∀ entry ∈ rest.zipIdx (start + 1),
        decide ((a :: rest).idxOf entry.1 + start = entry.2)
          = (decide (entry.1 ≠ a) && decide (rest.idxOf entry.1 + (start + 1) = entry.2)) := by
      intro entry hentry
      have hplace : start + 1 ≤ entry.2 := List.le_snd_of_mem_zipIdx hentry
      rw [← Bool.decide_and, decide_eq_decide]
      by_cases ha : entry.1 = a
      · rw [ha, List.idxOf_cons_self]
        exact iff_of_false (by omega) fun h ↦ h.1 rfl
      · rw [List.idxOf_cons_ne rest (Ne.symm ha)]
        constructor
        · intro h
          exact ⟨ha, by omega⟩
        · rintro ⟨-, h⟩
          omega
    rw [distinct, ih (start + 1), List.zipIdx_cons, List.filter_cons_of_pos (by simp),
      List.filter_congr hrest, List.map_cons, List.filter_map, ← List.filter_filter]
    rfl

theorem distinct_append (l more : List α) :
    distinct (l ++ more) = distinct l ++ (distinct more).filter (· ∉ l) := by
  induction l with
  | nil => simp [distinct]
  | cons a rest ih =>
    have hnew : ∀ b, decide (b ∉ a :: rest) = (decide (b ≠ a) && decide (b ∉ rest)) := by
      intro b
      rw [← Bool.decide_and, decide_eq_decide, List.mem_cons, not_or]
    rw [List.cons_append, distinct, distinct, ih, List.filter_append, List.filter_filter,
      List.cons_append, List.filter_congr fun b _ ↦ hnew b]

theorem distinct_append_of_subset {l more : List α} (h : ∀ a ∈ more, a ∈ l) :
    distinct (l ++ more) = distinct l := by
  have hnone : (distinct more).filter (· ∉ l) = [] := by
    refine List.filter_eq_nil_iff.mpr fun a ha hnew ↦ ?_
    exact of_decide_eq_true hnew (h a (mem_distinct.mp ha))
  rw [distinct_append, hnone, List.append_nil]

end Distinct

/-! ## The index -/

namespace Store

/-- The index: the place of the first item with each id. An id that is there already keeps its
place. -/
def index (store : Store) : Std.HashMap String Nat :=
  store.items.zipIdx.foldl (fun index entry ↦ index.insertIfNew entry.1.id entry.2) ∅

/-- Filling an index leaves the ids alone that it has, and gives every other id the place of its
first item. -/
theorem getElem?_foldl_insertIfNew (items : List Item) (start : Nat)
    (index : Std.HashMap String Nat) (id : String) :
    ((items.zipIdx start).foldl (fun index entry ↦ index.insertIfNew entry.1.id entry.2) index)[id]?
      = index[id]?.or (((items.map Item.id).idxOf? id).map (· + start)) := by
  induction items generalizing start index with
  | nil => simp
  | cons item rest ih =>
    rw [List.zipIdx_cons, List.foldl_cons, ih, Std.HashMap.getElem?_insertIfNew, List.map_cons,
      List.idxOf?_cons]
    by_cases hid : item.id = id
    · cases hold : index[id]? with
      | none => simp [hid, Std.HashMap.mem_iff_isSome_getElem?, hold]
      | some i => simp [hid, Std.HashMap.mem_iff_isSome_getElem?, hold]
    · have hplace : ((rest.map Item.id).idxOf? id).map (· + (start + 1))
          = (((rest.map Item.id).idxOf? id).map (· + 1)).map (· + start) := by
        rw [Option.map_map]
        exact congrFun (congrArg Option.map (funext fun i ↦ by simp; omega)) _
      simp [hid, hplace]

/-- The index leads to the first occurrence of each id. -/
theorem getElem?_index (store : Store) (id : String) :
    store.index[id]? = (store.items.map Item.id).idxOf? id := by
  rw [index, getElem?_foldl_insertIfNew]
  simp

theorem getElem?_index_eq_some_iff {store : Store} {id : String} {i : Nat} :
    store.index[id]? = some i ↔
      i < store.items.length ∧ (store.items.map Item.id).idxOf id = i := by
  rw [getElem?_index, List.idxOf?, List.findIdx?_eq_some_iff_findIdx_eq, List.length_map]
  rfl

theorem getElem?_index_eq_none_iff {store : Store} {id : String} :
    store.index[id]? = none ↔ id ∉ store.ids := by
  rw [getElem?_index, List.idxOf?_eq_none_iff, ids, mem_distinct]

/-! ## The two views -/

theorem ids_eq_filter_index (store : Store) :
    store.ids = (store.items.zipIdx.filter fun entry ↦
      store.index[entry.1.id]? = some entry.2).map fun entry ↦ entry.1.id := by
  have hkept : ∀ entry ∈ store.items.zipIdx,
      decide ((store.items.map Item.id).idxOf entry.1.id + 0 = entry.2)
        = decide (store.index[entry.1.id]? = some entry.2) := by
    intro entry hentry
    have hplace : entry.2 < store.items.length := by
      simpa using List.snd_lt_of_mem_zipIdx hentry
    rw [decide_eq_decide, getElem?_index_eq_some_iff, Nat.add_zero]
    exact ⟨fun h ↦ ⟨hplace, h⟩, fun h ↦ h.2⟩
  rw [ids, distinct_eq_filter_zipIdx _ 0, List.zipIdx_map, List.filter_map, List.map_map,
    ← List.filter_congr hkept]
  rfl

/-- An id that is listed is the id of a first item, which is found and to which the index leads. -/
theorem exists_first_of_mem_ids {store : Store} {id : String} (h : id ∈ store.ids) :
    ∃ before item after, store.items = before ++ item :: after ∧ item.id = id ∧
      (∀ other ∈ before, other.id ≠ id) ∧ store.index[id]? = some before.length ∧
      store.retrieve id = .ok item := by
  obtain ⟨item, hitem⟩ := exists_retrieve_of_mem h
  have hfind : store.items.find? (fun item ↦ item.id = id) = some item := by
    rw [retrieve_eq_find?] at hitem
    split at hitem
    · rename_i found hfound
      rw [hfound, Except.ok.inj hitem]
    · cases hitem
  obtain ⟨hid, before, after, hsplit, hbefore⟩ := List.find?_eq_some_iff_append.mp hfind
  have hid' : item.id = id := of_decide_eq_true hid
  have hbefore' : ∀ other ∈ before, other.id ≠ id := fun other hother ↦ by
    simpa using hbefore other hother
  refine ⟨before, item, after, hsplit, hid', hbefore', ?_, hitem⟩
  have hnew : id ∉ before.map Item.id := by
    intro hmem
    obtain ⟨other, hother, heq⟩ := List.mem_map.mp hmem
    exact hbefore' other hother heq
  rw [getElem?_index_eq_some_iff, hsplit, List.map_append, List.map_cons, hid',
    List.idxOf_append_of_notMem hnew, List.idxOf_cons_self, List.length_append, List.length_map]
  exact ⟨Nat.lt_add_of_pos_right (Nat.succ_pos _), Nat.add_zero _⟩

variable {store : Store} {more : List Item}

theorem ids_append (h : ∀ item ∈ more, item.id ∈ store.ids) :
    ids { store with items := store.items ++ more } = store.ids := by
  rw [ids, ids, List.map_append]
  refine distinct_append_of_subset fun id hid ↦ ?_
  obtain ⟨item, hitem, rfl⟩ := List.mem_map.mp hid
  exact mem_distinct.mp (h item hitem)

theorem retrieve_append (h : ∀ item ∈ more, item.id ∈ store.ids) (id : String) :
    retrieve { store with items := store.items ++ more } id = store.retrieve id := by
  rw [retrieve_eq_find?, retrieve_eq_find?, List.find?_append]
  cases hfind : store.items.find? fun item ↦ item.id = id with
  | some item => rfl
  | none =>
    have hmore : more.find? (fun item ↦ item.id = id) = none := by
      rw [List.find?_eq_none]
      intro item hitem hid
      obtain ⟨other, hother, heq⟩ := mem_ids_iff.mp (h item hitem)
      have hne : ¬other.id = id := by simpa using List.find?_eq_none.mp hfind other hother
      exact hne (heq.trans (of_decide_eq_true hid))
    rw [hmore]
    rfl

/-- **The two views of a store agree.** The ids are those that occur among the items, each once and
in the order of first occurrence, which are the ids to which the index leads. The index never leads
out of the items, and an id is found exactly if it is listed: what is found is the first item with
that id. Items whose ids occur already change no answer of the store. -/
theorem lookups_agree_with_ids (store : Store) :
    (∀ id, id ∈ store.ids ↔ ∃ item ∈ store.items, item.id = id) ∧
    store.ids.Nodup ∧
    store.ids.Pairwise (fun a b ↦
      (store.items.map Item.id).idxOf a < (store.items.map Item.id).idxOf b) ∧
    store.ids = (store.items.zipIdx.filter fun entry ↦
      store.index[entry.1.id]? = some entry.2).map (fun entry ↦ entry.1.id) ∧
    (∀ (id : String) (i : Nat), store.index[id]? = some i → i < store.items.length) ∧
    (∀ id ∈ store.ids, ∃ before item after, store.items = before ++ item :: after ∧
      item.id = id ∧ (∀ other ∈ before, other.id ≠ id) ∧
      store.index[id]? = some before.length ∧ store.retrieve id = .ok item) ∧
    (∀ id, id ∉ store.ids →
      store.index[id]? = none ∧ store.retrieve id = .error (.itemNotFound id)) ∧
    ∀ more : List Item, (∀ item ∈ more, item.id ∈ store.ids) →
      let larger : Store := { store with items := store.items ++ more }
      larger.ids = store.ids ∧ (∀ id, larger.retrieve id = store.retrieve id) ∧
        ∀ lang, larger.locale? lang = store.locale? lang := by
  refine ⟨fun id ↦ mem_ids_iff, nodup_distinct _, pairwise_idxOf_distinct _,
    ids_eq_filter_index store, ?_, ?_, ?_, ?_⟩
  · intro id i h
    exact (getElem?_index_eq_some_iff.mp h).1
  · intro id h
    exact exists_first_of_mem_ids h
  · intro id h
    exact ⟨getElem?_index_eq_none_iff.mpr h, retrieve_of_not_mem h⟩
  · intro more h
    exact ⟨ids_append h, retrieve_append h, fun lang ↦ rfl⟩

/-- A library with a repeated id: the first of the two items counts, and appending the second one
once more changes nothing. -/
theorem lookups_agree_with_ids_repeated :
    let first : Item := ⟨"a", [("title", .str "First")]⟩
    let second : Item := ⟨"a", [("title", .str "Second")]⟩
    let store : Store := ⟨[first, ⟨"b", []⟩, second], []⟩
    store.ids = ["a", "b"] ∧ store.retrieve "a" = .ok first ∧
      store.retrieve "c" = .error (.itemNotFound "c") ∧
      retrieve ⟨[first, ⟨"b", []⟩, second, second], []⟩ "a" = .ok first := by
  intro first second store
  obtain ⟨-, -, -, -, -, hfound, hmissing, hmore⟩ := lookups_agree_with_ids store
  have hids : store.ids = ["a", "b"] := rfl
  have hfirst : store.retrieve "a" = .ok first := by
    obtain ⟨before, item, after, hsplit, -, -, hindex, hitem⟩ := hfound "a" (by simp [hids])
    have hplace : before.length = 0 :=
      (getElem?_index_eq_some_iff.mp hindex).2.symm.trans List.idxOf_cons_self
    rw [List.eq_nil_of_length_eq_zero hplace] at hsplit
    rw [hitem, ← (List.cons.inj hsplit).1]
  refine ⟨hids, hfirst, (hmissing "c" (by simp [hids])).2, ?_⟩
  have hlarger := (hmore [second] (by simp [hids, second])).2.1 "a"
  exact hlarger.trans hfirst

end Store

end CitationFilter
