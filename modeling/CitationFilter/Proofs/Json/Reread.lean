import CitationFilter.Json.Text
import CitationFilter.Proofs.Json.Fields

/-!
# What the text of a value is read as

A text that is written does not always stand for the value that was written. A binary number is
read by a few rounded steps and may come out as a neighbour, so `Json.reread` is the value with what
its numbers are read as in their places. Nothing else is different.

A text may also be refused: if containers nest too deep, or if a number is too large to be read.
And an object with a repeated key loses a field. `Json.Fits` says of a value how deep its containers
nest, that no key is repeated, and what its numbers are like.
-/

namespace CitationFilter

namespace Json

/-! ## Numbers -/

/-- Some text is read as the number. -/
def Number.IsRead (n : Number) : Prop := ∃ cs, ofChars? cs = some n

/-- What the text of a number is read as. -/
def Number.reread (n : Number) : Number := (ofChars? n.chars).getD n

/-- The text of the number is read. -/
def Number.Legible (n : Number) : Prop := ofChars? n.chars = some n.reread

theorem Number.legible_of_eq_some {n m : Number} (h : ofChars? n.chars = some m) : n.Legible := by
  rw [Legible, reread, h, Option.getD_some]

theorem Number.reread_eq_of_eq_some {n m : Number} (h : ofChars? n.chars = some m) :
    n.reread = m := by
  rw [reread, h, Option.getD_some]

/-! ## Values -/

mutual

/-- The value with the numbers in it as they are read from their texts. -/
def reread : Json → Json
  | .arr items => .arr (rereadItems items)
  | .obj fields => .obj (rereadFields fields)
  | .null => .null
  | .bool b => .bool b
  | .num n => .num n.reread
  | .str s => .str s

/-- `reread` on every element. -/
def rereadItems : List Json → List Json
  | [] => []
  | item :: rest => item.reread :: rereadItems rest

/-- `reread` on the value of every field. -/
def rereadFields : List (String × Json) → List (String × Json)
  | [] => []
  | (key, value) :: rest => (key, value.reread) :: rereadFields rest

end

theorem rereadItems_eq_map (items : List Json) : rereadItems items = items.map reread := by
  induction items with
  | nil => rfl
  | cons item rest ih => rw [rereadItems, ih, List.map_cons]

theorem rereadFields_eq_map (fields : List (String × Json)) :
    rereadFields fields = fields.map fun field ↦ (field.1, field.2.reread) := by
  induction fields with
  | nil => rfl
  | cons field rest ih =>
    obtain ⟨key, value⟩ := field
    rw [rereadFields, ih, List.map_cons]

theorem keys_rereadFields (fields : List (String × Json)) :
    keys (rereadFields fields) = keys fields := by
  rw [rereadFields_eq_map, keys, keys, List.map_map]
  rfl

theorem lookup_rereadFields (key : String) (fields : List (String × Json)) :
    (rereadFields fields).lookup key = (fields.lookup key).map reread := by
  rw [rereadFields_eq_map, lookup_map_values]

theorem mergedItems_eq_map (items : List Json) : mergedItems items = items.map merged := by
  induction items with
  | nil => rfl
  | cons item rest ih => rw [mergedItems, ih, List.map_cons]

theorem mergedValues_eq_map (fields : List (String × Json)) :
    mergedValues fields = fields.map fun field ↦ (field.1, field.2.merged) := by
  induction fields with
  | nil => rfl
  | cons field rest ih =>
    obtain ⟨key, value⟩ := field
    rw [mergedValues, ih, List.map_cons]

/-! ## Tokens of parts -/

theorem mem_tokens_arr {items : List Json} {item : Json} {t : Token} (hitem : item ∈ items)
    (ht : t ∈ item.tokens) : t ∈ (arr items).tokens := by
  have hitems : t ∈ itemTokens items := by
    induction items with
    | nil => cases hitem
    | cons first rest ih =>
      rcases List.mem_cons.mp hitem with rfl | hrest
      · cases rest with
        | nil => exact ht
        | cons next rest => exact List.mem_append_left _ ht
      · cases rest with
        | nil => cases hrest
        | cons next rest => exact List.mem_append_right _ (List.mem_cons_of_mem _ (ih hrest))
  exact List.mem_cons_of_mem _ (List.mem_append_left _ hitems)

theorem mem_tokens_obj {fields : List (String × Json)} {field : String × Json} {t : Token}
    (hfield : field ∈ fields) (ht : t ∈ field.2.tokens) : t ∈ (obj fields).tokens := by
  have hfields : t ∈ fieldTokens fields := by
    induction fields with
    | nil => cases hfield
    | cons first rest ih =>
      obtain ⟨key, value⟩ := first
      rcases List.mem_cons.mp hfield with rfl | hrest
      · have hvalue : t ∈ .str key :: .colon :: value.tokens :=
          List.mem_cons_of_mem _ (List.mem_cons_of_mem _ ht)
        cases rest with
        | nil => exact hvalue
        | cons next rest => exact List.mem_append_left _ hvalue
      · cases rest with
        | nil => cases hrest
        | cons next rest => exact List.mem_append_right _ (List.mem_cons_of_mem _ (ih hrest))
  exact List.mem_cons_of_mem _ (List.mem_append_left _ hfields)

theorem exists_of_num_mem_tokens_arr {items : List Json} {x : Number}
    (h : .num x ∈ (arr items).tokens) : ∃ item ∈ items, .num x ∈ item.tokens := by
  have hitems : .num x ∈ itemTokens items := by
    simpa [tokens] using h
  clear h
  induction items with
  | nil => cases hitems
  | cons first rest ih =>
    cases rest with
    | nil => exact ⟨first, List.mem_cons_self, hitems⟩
    | cons next rest =>
      rcases List.mem_append.mp hitems with hfirst | hrest
      · exact ⟨first, List.mem_cons_self, hfirst⟩
      · obtain ⟨item, hitem, hx⟩ := ih ((List.mem_cons.mp hrest).resolve_left nofun)
        exact ⟨item, List.mem_cons_of_mem _ hitem, hx⟩

theorem exists_of_num_mem_tokens_obj {fields : List (String × Json)} {x : Number}
    (h : .num x ∈ (obj fields).tokens) : ∃ field ∈ fields, .num x ∈ field.2.tokens := by
  have hfields : .num x ∈ fieldTokens fields := by
    simpa [tokens] using h
  clear h
  induction fields with
  | nil => cases hfields
  | cons first rest ih =>
    obtain ⟨key, value⟩ := first
    cases rest with
    | nil =>
      have hvalue : .num x ∈ value.tokens := by simpa [fieldTokens] using hfields
      exact ⟨(key, value), List.mem_cons_self, hvalue⟩
    | cons next rest =>
      rcases List.mem_append.mp hfields with hfirst | hrest
      · have hvalue : .num x ∈ value.tokens := by simpa using hfirst
        exact ⟨(key, value), List.mem_cons_self, hvalue⟩
      · obtain ⟨field, hfield, hx⟩ := ih ((List.mem_cons.mp hrest).resolve_left nofun)
        exact ⟨field, List.mem_cons_of_mem _ hfield, hx⟩

/-! ## Values that fit -/

/-- The value has containers nested at most so deep, in none of its objects a repeated key, and only
numbers as they are wanted. -/
inductive Fits (wanted : Number → Prop) : Nat → Json → Prop
  | null {n : Nat} : Fits wanted n .null
  | bool {n : Nat} {b : Bool} : Fits wanted n (.bool b)
  | num {n : Nat} {x : Number} : wanted x → Fits wanted n (.num x)
  | str {n : Nat} {s : String} : Fits wanted n (.str s)
  | arr {n : Nat} {items : List Json} : (∀ item ∈ items, Fits wanted n item) →
      Fits wanted (n + 1) (.arr items)
  | obj {n : Nat} {fields : List (String × Json)} : (keys fields).Nodup →
      (∀ field ∈ fields, Fits wanted n field.2) → Fits wanted (n + 1) (.obj fields)

namespace Fits

variable {wanted : Number → Prop} {n m : Nat} {v : Json}

theorem mono (h : Fits wanted n v) (hle : n ≤ m) : Fits wanted m v := by
  induction h generalizing m with
  | null => exact .null
  | bool => exact .bool
  | num hx => exact .num hx
  | str => exact .str
  | arr _ ih =>
    obtain ⟨m, rfl⟩ := Nat.exists_eq_add_of_le' (Nat.le_trans (Nat.le_add_left 1 _) hle)
    exact .arr fun item hitem ↦ ih item hitem (Nat.le_of_succ_le_succ hle)
  | obj hkeys _ ih =>
    obtain ⟨m, rfl⟩ := Nat.exists_eq_add_of_le' (Nat.le_trans (Nat.le_add_left 1 _) hle)
    exact .obj hkeys fun field hfield ↦ ih field hfield (Nat.le_of_succ_le_succ hle)

theorem imp {other : Number → Prop} (h : Fits wanted n v) (himp : ∀ x, wanted x → other x) :
    Fits other n v := by
  induction h with
  | null => exact .null
  | bool => exact .bool
  | num hx => exact .num (himp _ hx)
  | str => exact .str
  | arr _ ih => exact .arr ih
  | obj hkeys _ ih => exact .obj hkeys ih

/-- Only the numbers among the tokens of the value matter. -/
theorem imp_of_mem_tokens {other : Number → Prop} (h : Fits wanted n v)
    (himp : ∀ x, wanted x → .num x ∈ v.tokens → other x) : Fits other n v := by
  induction h with
  | null => exact .null
  | bool => exact .bool
  | num hx => exact .num (himp _ hx List.mem_cons_self)
  | str => exact .str
  | arr _ ih =>
    refine .arr fun item hitem ↦ ih item hitem fun x hx hmem ↦ himp x hx ?_
    exact mem_tokens_arr hitem hmem
  | obj hkeys _ ih =>
    refine .obj hkeys fun field hfield ↦ ih field hfield fun x hx hmem ↦ himp x hx ?_
    exact mem_tokens_obj hfield hmem

theorem wanted_of_mem_tokens (h : Fits wanted n v) {x : Number} (hx : .num x ∈ v.tokens) :
    wanted x := by
  induction h with
  | null => simp [tokens] at hx
  | bool => simp [tokens] at hx
  | num hy =>
    obtain ⟨⟩ := List.mem_singleton.mp hx
    exact hy
  | str => simp [tokens] at hx
  | arr _ ih =>
    obtain ⟨item, hitem, hx⟩ := exists_of_num_mem_tokens_arr hx
    exact ih item hitem hx
  | obj _ _ ih =>
    obtain ⟨field, hfield, hx⟩ := exists_of_num_mem_tokens_obj hx
    exact ih field hfield hx

theorem merged_eq (h : Fits wanted n v) : v.merged = v := by
  induction h with
  | null => rfl
  | bool => rfl
  | num => rfl
  | str => rfl
  | @arr n items _ ih =>
    rw [merged, mergedItems_eq_map, List.map_congr_left ih, List.map_id']
  | @obj n fields hkeys _ ih =>
    have hvalues : mergedValues fields = fields := by
      rw [mergedValues_eq_map, List.map_congr_left fun field hfield ↦ by rw [ih field hfield],
        List.map_id']
    rw [merged, hvalues, mergedFields_eq_self hkeys]

/-- Reading the numbers anew changes nothing but the numbers. -/
theorem reread (h : Fits (fun x ↦ wanted x.reread) n v) : Fits wanted n v.reread := by
  induction h with
  | null => exact .null
  | bool => exact .bool
  | num hx => exact .num hx
  | str => exact .str
  | @arr n items _ ih =>
    rw [Json.reread, rereadItems_eq_map]
    exact .arr (List.forall_mem_map.mpr ih)
  | @obj n fields hkeys _ ih =>
    rw [← keys_rereadFields] at hkeys
    rw [Json.reread]
    refine .obj hkeys ?_
    rw [rereadFields_eq_map]
    exact List.forall_mem_map.mpr ih

theorem reread_eq (h : Fits (fun x ↦ x.reread = x) n v) : v.reread = v := by
  induction h with
  | null => rfl
  | bool => rfl
  | num hx => rw [Json.reread, hx]
  | str => rfl
  | @arr n items _ ih =>
    rw [Json.reread, rereadItems_eq_map, List.map_congr_left ih, List.map_id']
  | @obj n fields hkeys _ ih =>
    rw [Json.reread, rereadFields_eq_map,
      List.map_congr_left fun field hfield ↦ by rw [ih field hfield], List.map_id']

/-- No other values are read as themselves. -/
theorem of_reread_eq (h : Fits wanted n v) (heq : v.reread = v) :
    Fits (fun x ↦ x.reread = x) n v := by
  induction h with
  | null => exact .null
  | bool => exact .bool
  | num =>
    rw [Json.reread] at heq
    exact .num (Json.num.inj heq)
  | str => exact .str
  | @arr n items _ ih =>
    rw [Json.reread, rereadItems_eq_map] at heq
    have hsame := List.map_inj_left.mp ((Json.arr.inj heq).trans (List.map_id items).symm)
    exact .arr fun item hitem ↦ ih item hitem (hsame item hitem)
  | @obj n fields hkeys _ ih =>
    rw [Json.reread, rereadFields_eq_map] at heq
    have hsame := List.map_inj_left.mp ((Json.obj.inj heq).trans (List.map_id fields).symm)
    exact .obj hkeys fun field hfield ↦
      ih field hfield (congrArg Prod.snd (hsame field hfield))

end Fits

end Json

end CitationFilter
