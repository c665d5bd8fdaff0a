import CitationFilter.Proofs.Json.Spelling

/-!
# Values come back from their tokens

The tokens of a value take a reader that waits for a value to the same reader with the value added,
if the open containers and those of the value together do not nest too deep. Inside a container the
elements are added one after the other, and what closes the container adds the container itself to
the one around it. So a value that fits is read from its tokens, and with `Json.Spelling` from its
text.
-/

namespace CitationFilter

namespace Json

namespace Reader

variable {outer : List Frame}

/-! ## Inside an array -/

/-- The tokens of a value take a reader to the one with the value added. -/
def Adds (frames : List Frame) (v : Json) : Prop :=
  v.tokens.foldlM step ⟨frames, .value⟩ = add v frames

theorem foldlM_itemTokens {items : List Json} (hne : items ≠ []) {held : List Json}
    (h : ∀ item ∈ items, ∀ held, Adds (.array held :: outer) item) :
    (itemTokens items).foldlM step ⟨.array held :: outer, .value⟩
      = some ⟨.array (items.reverse ++ held) :: outer, .commaOrEnd⟩ := by
  induction items generalizing held with
  | nil => exact absurd rfl hne
  | cons item rest ih =>
    obtain ⟨hitem, hrest⟩ := List.forall_mem_cons.mp h
    cases rest with
    | nil => exact hitem held
    | cons next rest =>
      have hcomma : step ⟨.array (item :: held) :: outer, .commaOrEnd⟩ .comma
          = some ⟨.array (item :: held) :: outer, .value⟩ := rfl
      have hsplit : itemTokens (item :: next :: rest)
          = item.tokens ++ .comma :: itemTokens (next :: rest) := rfl
      rw [hsplit, foldlM_append_of_eq (hitem held), foldlM_cons_of_eq hcomma,
        ih (List.cons_ne_nil _ _) hrest, @List.reverse_cons _ item, List.append_assoc,
        List.singleton_append]

/-- A value does not begin with the end of an array. -/
theorem exists_tokens_eq_cons (v : Json) : ∃ t ts, v.tokens = t :: ts ∧ t ≠ .closeArray := by
  cases v with
  | null => exact ⟨_, _, rfl, by decide⟩
  | bool b => exact ⟨_, _, rfl, Token.noConfusion⟩
  | num n => exact ⟨_, _, rfl, Token.noConfusion⟩
  | str s => exact ⟨_, _, rfl, Token.noConfusion⟩
  | arr items => exact ⟨_, _, rfl, by decide⟩
  | obj fields => exact ⟨_, _, rfl, by decide⟩

theorem step_itemOrEnd {frames : List Frame} {t : Token} (h : t ≠ .closeArray) :
    step ⟨frames, .itemOrEnd⟩ t = step ⟨frames, .value⟩ t := by
  cases t with
  | closeArray => exact absurd rfl h
  | _ => rfl

/-- The first element of an array is read as the others are. -/
theorem foldlM_itemTokens_first {items : List Json} (hne : items ≠ []) (frames : List Frame) :
    (itemTokens items).foldlM step ⟨frames, .itemOrEnd⟩
      = (itemTokens items).foldlM step ⟨frames, .value⟩ := by
  obtain ⟨item, rest, rfl⟩ := List.exists_cons_of_ne_nil hne
  obtain ⟨t, ts, htokens, ht⟩ := exists_tokens_eq_cons item
  have hfirst : ∃ more, itemTokens (item :: rest) = t :: more := by
    cases rest with
    | nil => exact ⟨ts, htokens⟩
    | cons next rest => exact ⟨ts ++ _, congrArg (· ++ _) htokens⟩
  obtain ⟨more, hmore⟩ := hfirst
  rw [hmore, List.foldlM_cons, List.foldlM_cons, step_itemOrEnd ht]

theorem adds_arr {items : List Json} (hroom : outer.length < deepest)
    (h : ∀ item ∈ items, ∀ held, Adds (.array held :: outer) item) : Adds outer (.arr items) := by
  have hopen : step ⟨outer, .value⟩ .openArray = some ⟨.array [] :: outer, .itemOrEnd⟩ :=
    if_pos hroom
  rw [Adds, tokens, List.cons_append, foldlM_cons_of_eq hopen]
  by_cases hne : items = []
  · rw [hne]
    exact bind_pure _
  · -- the elements are held in reverse order until the bracket closes
    have hitems : (itemTokens items).foldlM step ⟨.array [] :: outer, .itemOrEnd⟩
        = some ⟨.array items.reverse :: outer, .commaOrEnd⟩ := by
      rw [foldlM_itemTokens_first hne, foldlM_itemTokens hne h, List.append_nil]
    rw [foldlM_append_of_eq hitems, List.foldlM_cons]
    have hclose : step ⟨.array items.reverse :: outer, .commaOrEnd⟩ .closeArray
        = add (.arr items) outer := by
      change add (.arr items.reverse.reverse) outer = _
      rw [List.reverse_reverse]
    rw [hclose]
    exact bind_pure _

/-! ## Inside an object -/

theorem foldlM_fieldTokens {fields : List (String × Json)} (hne : fields ≠ [])
    {held : List (String × Json)}
    (h : ∀ field ∈ fields, ∀ held key, Adds (.entry held key :: outer) field.2) :
    (fieldTokens fields).foldlM step ⟨.object held :: outer, .key⟩
      = some ⟨.object (fields.reverse ++ held) :: outer, .commaOrEnd⟩ := by
  induction fields generalizing held with
  | nil => exact absurd rfl hne
  | cons field rest ih =>
    obtain ⟨key, value⟩ := field
    obtain ⟨hvalue, hrest⟩ := List.forall_mem_cons.mp h
    have hkey : step ⟨.object held :: outer, .key⟩ (.str key)
        = some ⟨.entry held key :: outer, .colon⟩ := rfl
    have hcolon : step ⟨.entry held key :: outer, .colon⟩ .colon
        = some ⟨.entry held key :: outer, .value⟩ := rfl
    have hvalue : value.tokens.foldlM step ⟨.entry held key :: outer, .value⟩
        = some ⟨.object ((key, value) :: held) :: outer, .commaOrEnd⟩ := hvalue held key
    cases rest with
    | nil =>
      have hsplit : fieldTokens [(key, value)] = .str key :: .colon :: value.tokens := rfl
      rw [hsplit, foldlM_cons_of_eq hkey, foldlM_cons_of_eq hcolon, hvalue]
      rfl
    | cons next rest =>
      have hcomma : step ⟨.object ((key, value) :: held) :: outer, .commaOrEnd⟩ .comma
          = some ⟨.object ((key, value) :: held) :: outer, .key⟩ := rfl
      have hsplit : fieldTokens ((key, value) :: next :: rest)
          = .str key :: .colon :: (value.tokens ++ .comma :: fieldTokens (next :: rest)) := rfl
      rw [hsplit, foldlM_cons_of_eq hkey, foldlM_cons_of_eq hcolon, foldlM_append_of_eq hvalue,
        foldlM_cons_of_eq hcomma, ih (List.cons_ne_nil _ _) hrest,
        @List.reverse_cons _ (key, value), List.append_assoc, List.singleton_append]

/-- The first field of an object is read as the others are. -/
theorem foldlM_fieldTokens_first {fields : List (String × Json)} (hne : fields ≠ [])
    (frames : List Frame) :
    (fieldTokens fields).foldlM step ⟨frames, .keyOrEnd⟩
      = (fieldTokens fields).foldlM step ⟨frames, .key⟩ := by
  obtain ⟨⟨key, value⟩, rest, rfl⟩ := List.exists_cons_of_ne_nil hne
  cases rest <;> rfl

theorem adds_obj {fields : List (String × Json)} (hroom : outer.length < deepest)
    (h : ∀ field ∈ fields, ∀ held key, Adds (.entry held key :: outer) field.2) :
    Adds outer (.obj fields) := by
  have hopen : step ⟨outer, .value⟩ .openObject = some ⟨.object [] :: outer, .keyOrEnd⟩ :=
    if_pos hroom
  rw [Adds, tokens, List.cons_append, foldlM_cons_of_eq hopen]
  by_cases hne : fields = []
  · rw [hne]
    exact bind_pure _
  · have hfields : (fieldTokens fields).foldlM step ⟨.object [] :: outer, .keyOrEnd⟩
        = some ⟨.object fields.reverse :: outer, .commaOrEnd⟩ := by
      rw [foldlM_fieldTokens_first hne, foldlM_fieldTokens hne h, List.append_nil]
    rw [foldlM_append_of_eq hfields, List.foldlM_cons]
    have hclose : step ⟨.object fields.reverse :: outer, .commaOrEnd⟩ .closeObject
        = add (.obj fields) outer := by
      change add (.obj fields.reverse.reverse) outer = _
      rw [List.reverse_reverse]
    rw [hclose]
    exact bind_pure _

/-! ## Values -/

theorem adds_of_fits {wanted : Number → Prop} {n : Nat} {v : Json} (h : Fits wanted n v)
    {frames : List Frame} (hroom : frames.length + n ≤ deepest) : Adds frames v := by
  induction h generalizing frames with
  | null => exact bind_pure _
  | bool => exact bind_pure _
  | num => exact bind_pure _
  | str => exact bind_pure _
  | arr _ ih =>
    refine adds_arr (by omega) fun item hitem held ↦ ih item hitem ?_
    rw [List.length_cons]
    omega
  | obj _ _ ih =>
    refine adds_obj (by omega) fun field hfield held key ↦ ih field hfield ?_
    rw [List.length_cons]
    omega

end Reader

theorem Fits.ofTokens?_eq {wanted : Number → Prop} {v : Json}
    (h : Fits wanted Reader.deepest v) : ofTokens? v.tokens = some v := by
  have hadds : Reader.Adds [] v := Reader.adds_of_fits h (Nat.le_of_eq (Nat.zero_add _))
  rw [ofTokens?, Reader.start, hadds]
  rfl

/-- A value is read from its text if its tokens are read from their characters. -/
theorem readAll?_text {v : Json} (htokens : tokens? (v.tokens.flatMap Token.chars) = some v.tokens)
    (hvalue : ofTokens? v.tokens = some v) : readAll? v.text = some v := by
  rw [readAll?, text, String.toList_ofList, htokens, Option.bind_some, hvalue]

theorem read?_text {v : Json} (htokens : tokens? (v.tokens.flatMap Token.chars) = some v.tokens)
    (hvalue : ofTokens? v.tokens = some v) (hmerged : v.merged = v) : read? v.text = some v := by
  rw [read?, readAll?_text htokens hvalue, Option.map_some, hmerged]

/-- **Texts that are written are read.** The text of a value that fits and has only numbers that are
read is read as the value with its numbers read anew. -/
theorem Fits.readAll?_text {v : Json} (h : Fits Number.Legible Reader.deepest v) :
    readAll? v.text = some v.reread := by
  have hreread : Fits (fun _ ↦ True) Reader.deepest v.reread :=
    (h.imp fun _ _ ↦ trivial).reread
  rw [readAll?, h.tokens?_text, Option.bind_some, hreread.ofTokens?_eq]

/-- There are no repeated keys to resolve. -/
theorem Fits.read?_text {v : Json} (h : Fits Number.Legible Reader.deepest v) :
    read? v.text = some v.reread := by
  have hreread : Fits (fun _ ↦ True) Reader.deepest v.reread :=
    (h.imp fun _ _ ↦ trivial).reread
  rw [read?, h.readAll?_text, Option.map_some, hreread.merged_eq]

end Json

end CitationFilter
