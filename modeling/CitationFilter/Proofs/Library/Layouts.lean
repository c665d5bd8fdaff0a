import CitationFilter.Library.Format
import CitationFilter.Proofs.Library.Reading

/-!
# The layouts of a library

The same library can be laid out as a list in JSON, as a list in YAML, and as a field of a mapping
in YAML. The readers of the formats are not the same, but what they make of an element depends on
its data only, and every JSON value is the data of a YAML value. So it does not matter in which of
the layouts a library comes, neither for the items nor for the question whether it is accepted.
-/

namespace CitationFilter

/-! ## JSON values as data of YAML values -/

namespace Yaml.Value

/-- The scalar of a number. -/
def ofNumber : Json.Number → Atom
  | .int i => .int i
  | .float x => .real (.finite x)

mutual

/-- The YAML value that has a JSON value for its data. -/
def ofJson : Json → Value
  | .null => .atom .null
  | .bool b => .atom (.bool b)
  | .num n => .atom (ofNumber n)
  | .str s => .atom (.str s)
  | .arr items => .sequence (ofItems items)
  | .obj fields => .mapping (ofFields fields)

/-- `ofJson` on every element. -/
def ofItems : List Json → List Value
  | [] => []
  | item :: rest => ofJson item :: ofItems rest

/-- `ofJson` on the value of every field. -/
def ofFields : List (String × Json) → List (Value × Value)
  | [] => []
  | (key, value) :: rest => (.atom (.str key), ofJson value) :: ofFields rest

end

theorem ofItems_eq_map (items : List Json) : ofItems items = items.map ofJson := by
  induction items with
  | nil => rfl
  | cons item rest ih => rw [ofItems, ih, List.map_cons]

mutual

/-- The data of the value is the JSON value, in which repeated keys are resolved. -/
theorem toJson?_ofJson : ∀ v : Json, (ofJson v).toJson? = some v.merged
  | .null => rfl
  | .bool _ => rfl
  | .num (.int _) => rfl
  | .num (.float _) => rfl
  | .str _ => rfl
  | .arr items => by
    rw [ofJson, toJson?, itemsToJson?_ofItems items, Json.merged]
    rfl
  | .obj fields => by
    rw [ofJson, toJson?, fieldsToJson?_ofFields fields, Json.merged]
    rfl

theorem itemsToJson?_ofItems :
    ∀ items : List Json, itemsToJson? (ofItems items) = some (Json.mergedItems items)
  | [] => rfl
  | item :: rest => by
    rw [ofItems, itemsToJson?, toJson?_ofJson item, itemsToJson?_ofItems rest]
    rfl

theorem fieldsToJson?_ofFields :
    ∀ fields : List (String × Json),
      fieldsToJson? (ofFields fields) = some (Json.mergedValues fields)
  | [] => rfl
  | (key, value) :: rest => by
    rw [ofFields, fieldsToJson?, toJson?_ofJson value, fieldsToJson?_ofFields rest]
    rfl

end

end Yaml.Value

/-! ## Items -/

namespace Item

variable {α β : Type}

theorem idOf_map (idText? : α → Option String) (f : β → α) (found : Option String)
    (fields : List (String × β)) :
    idOf idText? found (fields.map fun field ↦ (field.1, f field.2))
      = idOf (fun b ↦ idText? (f b)) found fields := by
  induction fields generalizing found with
  | nil => rfl
  | cons field rest ih =>
    obtain ⟨key, b⟩ := field
    simp only [List.map_cons, idOf]
    by_cases hkey : key = idKey
    · rw [if_pos hkey, if_pos hkey]
      rcases found with _ | id
      · rcases idText? (f b) with _ | id
        · rfl
        · exact ih (some id)
      · rfl
    · rw [if_neg hkey, if_neg hkey]
      exact ih found

/-- An item only depends on what its fields are read as. -/
theorem ofFields_map (idText? : α → Option String) (value : α → Json) (f : β → α)
    (fields : List (String × β)) :
    ofFields idText? value (fields.map fun field ↦ (field.1, f field.2))
      = ofFields (fun b ↦ idText? (f b)) (fun b ↦ value (f b)) fields := by
  rw [ofFields, ofFields, idOf_map, List.filter_map, List.map_map]
  rfl

end Item

namespace Library

open Yaml.Value (ofJson)

theorem valueId?_ofJson (v : Json) : valueId? (ofJson v) = Item.idText? v := by
  cases v with
  | num n => cases n <;> rfl
  | _ => rfl

theorem mapM_field?_ofFields (fields : List (String × Json)) :
    (Yaml.Value.ofFields fields).mapM field?
      = some (fields.map fun field ↦ (field.1, (ofJson field.2, field.2.merged))) := by
  induction fields with
  | nil => rfl
  | cons field rest ih =>
    obtain ⟨key, value⟩ := field
    have hfield : field? (.atom (.str key), ofJson value)
        = some (key, (ofJson value, value.merged)) := by
      rw [field?, Yaml.Value.toJson?_ofJson]
      rfl
    rw [Yaml.Value.ofFields, List.mapM_cons, hfield, ih]
    rfl

/-- In both formats a value is the same item, or it is none. -/
theorem item?_ofJson (v : Json) : item? (ofJson v) = (Item.ofJson v).toOption := by
  cases v with
  | obj fields =>
    have hmap := Item.ofFields_map (fun f ↦ valueId? f.1) (fun f ↦ f.2)
      (fun v ↦ (ofJson v, v.merged)) fields
    rw [ofJson, item?, mapM_field?_ofFields, Item.ofJson, Option.bind_eq_bind, Option.bind_some,
      hmap, funext valueId?_ofJson]
  | num n => cases n <;> rfl
  | _ => rfl

theorem items?_ofJson (elements : List Json) :
    items? (ofJson (.arr elements)) = (elements.mapM Item.ofJson).toOption := by
  rw [ofJson, items?, Yaml.Value.ofItems_eq_map, List.mapM_map, Except.toOption_mapM]
  exact congrArg (elements.mapM ·) (funext item?_ofJson)

/-! ## The mapping around the list -/

/-- A key that is a text and not the key of the list. -/
def IsOtherKey (key : Yaml.Value) : Prop := ∃ s, key = .atom (.str s) ∧ s ≠ listKey

theorem mapM_isListKey? {fields : List (Yaml.Value × Yaml.Value)}
    (h : ∀ field ∈ fields, IsOtherKey field.1) :
    (fields.mapM fun f ↦ (isListKey? f.1).map fun isList ↦ (isList, f.2))
      = some (fields.map fun f ↦ (false, f.2)) := by
  induction fields with
  | nil => rfl
  | cons field rest ih =>
    obtain ⟨hfield, hrest⟩ := List.forall_mem_cons.mp h
    obtain ⟨s, hs, hne⟩ := hfield
    have hkey : isListKey? field.1 = some false := by
      rw [hs, isListKey?, decide_eq_false hne]
    rw [List.mapM_cons, hkey, ih hrest]
    rfl

theorem list?_append_cons {before after : List (Yaml.Value × Yaml.Value)}
    (hbefore : ∀ field ∈ before, IsOtherKey field.1)
    (hafter : ∀ field ∈ after, IsOtherKey field.1) (list : Yaml.Value) :
    list? (before ++ (.atom (.str listKey), list) :: after) = some list := by
  have hkey : isListKey? (.atom (.str listKey)) = some true := rfl
  have hnone : ∀ fields : List (Yaml.Value × Yaml.Value),
      (fields.map fun f ↦ (false, f.2)).filter (·.1) = [] := by
    intro fields
    simp
  rw [list?, List.mapM_append, mapM_isListKey? hbefore, List.mapM_cons, hkey,
    mapM_isListKey? hafter]
  simp [hnone]

/-! ## Libraries -/

/-- All three come to the same items, or all three find a fault in the library. -/
def Agree (first second third : Except Error (List Item)) : Prop :=
  (∃ items, first = .ok items ∧ second = .ok items ∧ third = .ok items) ∨
    ∃ fault fault' fault'', first = .error (.library fault) ∧ second = .error (.library fault') ∧
      third = .error (.library fault'')

theorem agree_mapM (elements : List Json) :
    let read := elements.mapM Item.ofJson
    Agree (read.toOption.elim (.error noLayout) .ok) (read.toOption.elim (.error noLayout) .ok)
      (read.mapError fun fault ↦ .library (.shape fault)) := by
  intro read
  rcases read with fault | items
  · exact Or.inr ⟨_, _, _, rfl, rfl, rfl⟩
  · exact Or.inl ⟨items, rfl, rfl, rfl⟩

theorem listOfJsonText_of_readAll? {text : String} {elements : List Json}
    (h : Json.readAll? text = some (.arr elements)) :
    Item.listOfJsonText text
      = (elements.mapM Item.ofJson).mapError fun fault ↦ .library (.shape fault) := by
  rw [Item.listOfJsonText, h]
  rfl

theorem ofYamlText_of_list {text : String} {elements : List Json}
    (h : Yaml.Value.ofText? text = some (ofJson (.arr elements))) :
    ofYamlText text = (elements.mapM Item.ofJson).toOption.elim (.error noLayout) .ok := by
  rw [ofYamlText, h, ← items?_ofJson]
  rfl

theorem ofYamlText_of_mapping {text : String} {elements : List Json}
    {fields : List (Yaml.Value × Yaml.Value)}
    (h : Yaml.Value.ofText? text = some (.mapping fields))
    (hlist : list? fields = some (ofJson (.arr elements))) :
    ofYamlText text = (elements.mapM Item.ofJson).toOption.elim (.error noLayout) .ok := by
  rw [ofYamlText, h, ← items?_ofJson]
  dsimp only
  rw [ofValue?, hlist]
  rfl

theorem isYaml_iff {path : String} :
    isYaml path = true ↔ extension? path ∈ [some "yaml", some "yml"] := by
  simp [isYaml]

/-- **The layouts agree.** Suppose that an array is the data of a YAML text, that another YAML text
has a mapping with the same data under the key of the list and with texts for all other keys, and
that a JSON text is read as the array. Then all three have the same items, or all three have a fault
of the library. The file of a library is read in the same way, so the store has the same items, if
the extensions of the first two are those of YAML and that of the third one is not. -/
theorem layouts_agree {elements : List Json} {list mapping json : String}
    {before after : List (Yaml.Value × Yaml.Value)}
    (hlist : Yaml.Value.ofText? list = some (ofJson (.arr elements)))
    (hmapping : Yaml.Value.ofText? mapping
      = some (.mapping (before ++ (.atom (.str listKey), ofJson (.arr elements)) :: after)))
    (hbefore : ∀ field ∈ before, IsOtherKey field.1)
    (hafter : ∀ field ∈ after, IsOtherKey field.1)
    (hjson : Json.readAll? json = some (.arr elements)) :
    Agree (ofYamlText list) (ofYamlText mapping) (Item.listOfJsonText json) ∧
      ∀ path path' path'', extension? path ∈ [some "yaml", some "yml"] →
        extension? path' ∈ [some "yaml", some "yml"] →
        extension? path'' ∉ [some "yaml", some "yml"] →
        Agree (ofText path list) (ofText path' mapping) (ofText path'' json) := by
  have hagree : Agree (ofYamlText list) (ofYamlText mapping) (Item.listOfJsonText json) := by
    rw [ofYamlText_of_list hlist, ofYamlText_of_mapping hmapping
      (list?_append_cons hbefore hafter _), listOfJsonText_of_readAll? hjson]
    exact agree_mapM elements
  refine ⟨hagree, fun path path' path'' hpath hpath' hpath'' ↦ ?_⟩
  rw [← isYaml_iff] at hpath hpath' hpath''
  rw [ofText, if_pos hpath, ofText, if_pos hpath', ofText, if_neg hpath'']
  exact hagree

/-- A text in YAML is read by way of its tokens and their tree. -/
theorem ofText?_of_tokens {text : String} {tokens : List Yaml.Token} {tree : Yaml.Tree String}
    {value : Yaml.Value} (htokens : (Yaml.Source.ofText? text).bind (·.tokens?) = some tokens)
    (htree : Yaml.Tree.ofTokens? tokens = some (some tree)) (hvalue : tree.value? = some value) :
    Yaml.Value.ofText? text = some value := by
  obtain ⟨source, hsource, htokens⟩ := Option.bind_eq_some_iff.mp htokens
  have hread : Yaml.Tree.ofText? text = some (some tree) := by
    rw [Yaml.Tree.ofText?, hsource, Option.bind_eq_bind, Option.bind_some, htokens,
      Option.bind_eq_bind, Option.bind_some, htree]
  rw [Yaml.Value.ofText?, hread]
  exact hvalue

/-- The same item in the three layouts, with a title in front of the list. -/
theorem layouts_agree_of_year :
    ofText "library.yaml" "- id: 2020\n" = .ok [⟨"2020", []⟩] ∧
      ofText "library.yml" "title: x\nreferences:\n- id: 2020\n" = .ok [⟨"2020", []⟩] ∧
      ofText "library" "[\x7b\"id\":2020\x7d]" = .ok [⟨"2020", []⟩] := by
  have hlist : Yaml.Value.ofText? "- id: 2020\n"
      = some (ofJson (.arr [.obj [("id", .num (.int 2020))]])) := by
    have htokens : (Yaml.Source.ofText? "- id: 2020\n").bind (·.tokens?)
        = some [.blockSequenceStart, .blockEntry, .blockMappingStart, .key, .scalar "id" true,
          .value, .scalar "2020" true, .blockEnd, .blockEnd] := by
      decide +kernel
    exact ofText?_of_tokens htokens rfl rfl
  have hmapping : Yaml.Value.ofText? "title: x\nreferences:\n- id: 2020\n"
      = some (.mapping ([(.atom (.str "title"), .atom (.str "x"))]
        ++ (.atom (.str listKey), ofJson (.arr [.obj [("id", .num (.int 2020))]])) :: [])) := by
    have htokens : (Yaml.Source.ofText? "title: x\nreferences:\n- id: 2020\n").bind (·.tokens?)
        = some [.blockMappingStart, .key, .scalar "title" true, .value, .scalar "x" true, .key,
          .scalar "references" true, .value, .blockEntry, .blockMappingStart, .key,
          .scalar "id" true, .value, .scalar "2020" true, .blockEnd, .blockEnd] := by
      decide +kernel
    exact ofText?_of_tokens htokens rfl rfl
  have hjson : Json.readAll? "[\x7b\"id\":2020\x7d]"
      = some (.arr [.obj [("id", .num (.int 2020))]]) := rfl
  have htitle : ∀ field ∈ [((.atom (.str "title"), .atom (.str "x")) : Yaml.Value × Yaml.Value)],
      IsOtherKey field.1 := by
    intro field hfield
    obtain rfl := List.mem_singleton.mp hfield
    exact ⟨"title", rfl, by decide⟩
  have hagree := (layouts_agree hlist hmapping htitle (List.forall_mem_nil _) hjson).2
    "library.yaml" "library.yml" "library" (by decide +kernel) (by decide +kernel)
    (by decide +kernel)
  have hitem : ofText "library" "[\x7b\"id\":2020\x7d]" = .ok [⟨"2020", []⟩] := by
    have hextension : isYaml "library" = false := by decide +kernel
    rw [ofText, hextension, if_neg Bool.false_ne_true, listOfJsonText_of_readAll? hjson]
    rfl
  rcases hagree with ⟨items, hfirst, hsecond, hthird⟩ | ⟨_, _, _, -, -, hthird⟩
  · obtain rfl := Except.ok.inj (hthird.symm.trans hitem)
    exact ⟨hfirst, hsecond, hthird⟩
  · cases hthird.symm.trans hitem

end Library

end CitationFilter
