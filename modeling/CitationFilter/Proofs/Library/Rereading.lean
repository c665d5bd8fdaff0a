import CitationFilter.Engine.Conversation
import CitationFilter.Proofs.Json.Legible
import CitationFilter.Proofs.Library.Reading

/-!
# Reading the items of a library again

The engine gets an item as an object with the id in front, which is a text there, and then the other
fields in order. Such objects are read as items again, since the reader has left nothing in the
items that it would refuse: they have one id, no repeated keys and only numbers that are read from
some text. But a binary number may come out as a neighbour.
-/

namespace CitationFilter

namespace Item

/-- The text of a list of items, each as the engine gets it. -/
def listToText (items : List Item) : String := (Json.arr (items.map toJson)).text

/-- The item with the numbers in its fields as they are read from their texts. -/
def reread (item : Item) : Item := ⟨item.id, Json.rereadFields item.fields⟩

theorem reread_arr_toJson (items : List Item) :
    (Json.arr (items.map toJson)).reread = .arr ((items.map reread).map toJson) := by
  rw [Json.reread, Json.rereadItems_eq_map, List.map_map, List.map_map]
  rfl

/-! ## What was read fits -/

theorem IsReadFrom.fits {item : Item} {fields : List (String × Json)} (h : item.IsReadFrom fields)
    {wanted : Json.Number → Prop} {n : ℕ}
    (hlast : ∀ key value,
      fields.reverse.lookup key = some value → Json.Fits wanted n value.merged) :
    Json.Fits wanted (n + 1) item.toJson := by
  have hkeys : (Json.keys ((idKey, .str item.id) :: item.fields)).Nodup := by
    refine List.nodup_cons.mpr ⟨fun hid ↦ ?_, h.nodup_keys⟩
    exact h.ne_idKey idKey hid rfl
  refine .obj hkeys (List.forall_mem_cons.mpr ⟨.str, fun field hfield ↦ ?_⟩)
  have hlookup := Json.lookup_of_mem h.nodup_keys hfield
  rw [h.values field.1 (h.ne_idKey field.1 (List.mem_map_of_mem hfield))] at hlookup
  obtain ⟨value, hvalue, heq⟩ := Option.map_eq_some_iff.mp hlookup
  rw [← heq]
  exact hlast field.1 value hvalue

theorem fits_of_listOfJsonText {text : String} {items : List Item}
    (h : listOfJsonText text = .ok items) :
    Json.Fits Json.Number.IsRead Json.Reader.deepest (.arr (items.map toJson)) := by
  obtain ⟨values, hvalues, hitems⟩ := listOfJsonText_eq_ok_iff.mp h
  refine .arr (List.forall_mem_map.mpr fun item hitem ↦ ?_)
  obtain ⟨i, rfl⟩ := List.get_of_mem hitem
  have hi : i.val < values.length := hitems.length_eq.symm ▸ i.isLt
  obtain ⟨fields, hvalue, hread⟩ := ofJson_eq_ok_iff.mp (hitems.get hi i.isLt)
  have hmem : Json.obj fields ∈ values := by
    rw [← hvalue]
    exact List.get_mem values ⟨i, hi⟩
  exact hread.fits fun key value hlast ↦ fits_last hvalues hmem hlast

/-! ## Reading again -/

/-- An object that fits and has the text of an id in front is the item that it looks like. -/
theorem ofJson_toJson {item : Item} {wanted : Json.Number → Prop} {n : ℕ}
    (h : Json.Fits wanted n item.toJson) : ofJson item.toJson = .ok item := by
  rw [toJson] at h
  obtain ⟨⟩ | ⟨⟩ | ⟨⟩ | ⟨⟩ | ⟨⟩ | ⟨hkeys, hfields⟩ := h
  -- the first field has the key of ids, so no other one has
  obtain ⟨hnew, hnodup⟩ := List.nodup_cons.mp hkeys
  have hother : ∀ field ∈ item.fields, field.1 ≠ idKey := fun field hfield heq ↦
    hnew (List.mem_map.mpr ⟨field, hfield, heq⟩)
  have hid : ((idKey, Json.str item.id) :: item.fields).filter (·.1 = idKey)
      = [(idKey, .str item.id)] := by
    rw [List.filter_cons_of_pos (by simp), List.filter_eq_nil_iff.mpr]
    intro field hfield
    simpa using hother field hfield
  have hothers : ((idKey, Json.str item.id) :: item.fields).filter (·.1 ≠ idKey) = item.fields := by
    rw [List.filter_cons_of_neg (by simp), List.filter_eq_self]
    intro field hfield
    simpa using hother field hfield
  have hmerged : item.fields.map (fun field ↦ (field.1, field.2.merged)) = item.fields := by
    rw [List.map_congr_left fun field hfield ↦ by
      rw [(hfields field (List.mem_cons_of_mem _ hfield)).merged_eq], List.map_id']
  rw [toJson, ofJson, ofFields_eq_ok_iff]
  refine ⟨⟨.str item.id, hid, rfl⟩, ?_⟩
  rw [hothers, hmerged, Json.mergedFields_eq_self hnodup]

/-- The items of a library are read again from their text, with their numbers read anew. -/
theorem listOfJsonText_listToText {items : List Item}
    (h : Json.Fits Json.Number.IsRead Json.Reader.deepest (.arr (items.map toJson))) :
    listOfJsonText (listToText items) = .ok (items.map reread) := by
  have hlegible := h.imp fun _ ↦ Json.Number.IsRead.legible
  have hfits : Json.Fits (fun _ ↦ True) Json.Reader.deepest
      (.arr ((items.map reread).map toJson)) := by
    rw [← reread_arr_toJson]
    exact (h.imp fun _ _ ↦ trivial).reread
  rw [listOfJsonText_eq_ok_iff, listToText, hlegible.readAll?_text, reread_arr_toJson]
  refine ⟨_, rfl, ?_⟩
  obtain ⟨⟩ | ⟨⟩ | ⟨⟩ | ⟨⟩ | hitems := hfits
  rw [List.forall₂_map_left_iff, List.forall₂_same]
  exact fun item hitem ↦ ofJson_toJson (hitems _ (List.mem_map_of_mem hitem))

theorem map_reread_eq_iff {items : List Item}
    (h : Json.Fits Json.Number.IsRead Json.Reader.deepest (.arr (items.map toJson))) :
    items.map reread = items ↔ ∀ x, .num (.float x) ∈ (Json.arr (items.map toJson)).tokens →
      Json.Number.ofChars? (Json.Number.float x).chars = some (.float x) := by
  have htoJson : Function.Injective toJson := by
    rintro ⟨id, fields⟩ ⟨id', fields'⟩ heq
    obtain ⟨hid, rfl⟩ := List.cons.inj (Json.obj.inj heq)
    obtain rfl := Json.str.inj (Prod.mk.inj hid).2
    rfl
  rw [← h.reread_eq_iff, reread_arr_toJson, Json.arr.injEq,
    (List.map_injective_iff.mpr htoJson).eq_iff]

/-- **Libraries are read again.** A library is accepted if and only if it is an array of objects
each of which has exactly one id, a text or a number; otherwise the library is at fault. Its items
are those of the elements in order, and the engine gets them with the id in front. Their text is
read as the same items with the numbers read anew, so as the same items if and only if every binary
number in them is read as itself. -/
theorem library_read_again (text : String) :
    ((∃ items, listOfJsonText text = .ok items) ↔
      ∃ values, Json.readAll? text = some (.arr values) ∧ ∀ value ∈ values, Identified value) ∧
    (∀ e, listOfJsonText text = .error e → ∃ fault, e = .library fault) ∧
    ∀ items, listOfJsonText text = .ok items →
      (∃ values, Json.readAll? text = some (.arr values) ∧
        List.Forall₂ (fun value item ↦ ∃ fields, value = .obj fields ∧ item.IsReadFrom fields)
          values items) ∧
      (∀ (store : Store) (id : String) (item : Item), store.retrieve id = .ok item →
        Conversation.lookUp store id .item = .ok (.obj ((idKey, .str item.id) :: item.fields))) ∧
      listOfJsonText (listToText items) = .ok (items.map reread) ∧
      (listOfJsonText (listToText items) = .ok items ↔
        ∀ x, .num (.float x) ∈ (Json.arr (items.map toJson)).tokens →
          Json.Number.ofChars? (Json.Number.float x).chars = some (.float x)) := by
  refine ⟨exists_listOfJsonText_iff, fun e h ↦ exists_library_of_listOfJsonText h, ?_⟩
  intro items h
  have hfits := fits_of_listOfJsonText h
  have hagain := listOfJsonText_listToText hfits
  refine ⟨?_, ?_, hagain, ?_⟩
  · obtain ⟨values, hvalues, hitems⟩ := listOfJsonText_eq_ok_iff.mp h
    exact ⟨values, hvalues, hitems.imp fun _ _ hitem ↦ ofJson_eq_ok_iff.mp hitem⟩
  · intro store id item hitem
    rw [Conversation.lookUp, hitem]
    rfl
  · rw [hagain, ← map_reread_eq_iff hfits]
    exact ⟨Except.ok.inj, congrArg Except.ok⟩

/-- An item with a repeated key, a number for its id behind the title, and a binary number. -/
theorem library_read_again_of_repeated :
    let text := "[\x7b\"title\":\"A\",\"id\":7,\"title\":\"B\",\"volume\":0.5\x7d]"
    let half : Binary64 := ⟨false, 4503599627370496, -53⟩
    let item : Item := ⟨"7", [("title", .str "B"), ("volume", .num (.float half))]⟩
    listOfJsonText text = .ok [item] ∧ listOfJsonText (listToText [item]) = .ok [item] := by
  intro text half item
  have htokens : Json.tokens? text.toList = some [.openArray, .openObject,
      .str "title", .colon, .str "A", .comma, .str "id", .colon, .num (.int 7), .comma,
      .str "title", .colon, .str "B", .comma, .str "volume", .colon, .num (.float half),
      .closeObject, .closeArray] := by
    decide +kernel
  have hvalue : Json.readAll? text = some (.arr [.obj [("title", .str "A"), ("id", .num (.int 7)),
      ("title", .str "B"), ("volume", .num (.float half))]]) := by
    rw [Json.readAll?, htokens]
    rfl
  have hread : listOfJsonText text = .ok [item] :=
    listOfJsonText_eq_ok_iff.mpr ⟨_, hvalue, .cons rfl .nil⟩
  refine ⟨hread, ((library_read_again text).2.2 [item] hread).2.2.2.mpr ?_⟩
  intro x hx
  have hhalf : x = half := by
    simpa [item, toJson, Json.tokens, Json.fieldTokens, Json.itemTokens] using hx
  rw [hhalf]
  decide +kernel

/-- A binary number that is not read as itself: the items of the library are read from their text
with another number in this place. -/
theorem binary_number_changed :
    ∃ items again, listOfJsonText "[\x7b\"id\":\"a\",\"x\":30e22\x7d]" = .ok items ∧
      listToText items = "[\x7b\"id\":\"a\",\"x\":3e+23\x7d]" ∧
      listOfJsonText (listToText items) = .ok again ∧ again ≠ items := by
  have hfirst : (listOfJsonText "[\x7b\"id\":\"a\",\"x\":30e22\x7d]").toOption.map listToText
      = some "[\x7b\"id\":\"a\",\"x\":3e+23\x7d]" := by
    decide +kernel
  have hsecond : (listOfJsonText "[\x7b\"id\":\"a\",\"x\":3e+23\x7d]").toOption.map listToText
      = some "[\x7b\"id\":\"a\",\"x\":2.9999999999999997e+23\x7d]" := by
    decide +kernel
  obtain ⟨items, hitems, htext⟩ := Option.map_eq_some_iff.mp hfirst
  obtain ⟨again, hagain, htext'⟩ := Option.map_eq_some_iff.mp hsecond
  refine ⟨items, again, Except.toOption_eq_some_iff.mp hitems, htext, ?_, ?_⟩
  · rw [htext]
    exact Except.toOption_eq_some_iff.mp hagain
  · rintro rfl
    rw [htext] at htext'
    exact absurd htext' (by decide +kernel)

end Item

end CitationFilter
