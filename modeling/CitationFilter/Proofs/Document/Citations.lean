import CitationFilter.Document.Cite
import CitationFilter.Proofs.Document.Form
import CitationFilter.Proofs.Json.Shape

/-!
# What a cite node has to look like

A cite node holds its citations in an array, which is the first element of its contents. A citation
is an object with the id of an item as a text, perhaps with a suffix that is an array, and with any
other fields; or it is the array of these one or two values. `Json.IsCitation` and `Json.IsCite` say
this of a value and of what it stands for, without a look at how the readers go about it, and the
readers accept exactly these values (`Citation.ofJson_eq_ok_iff`, `Cite.ofJson_eq_ok_iff`).
-/

namespace CitationFilter

/-! ## Citations -/

/-- The citation is what the fields of an object say. -/
structure Citation.InFields (citation : Citation) (fields : List (String × Json)) : Prop where
  id : fields.lookup "citationId" = some (.str citation.id)
  suffix : fields.lookup "citationSuffix" = none ∧ citation.suffix = [] ∨
    fields.lookup "citationSuffix" = some (.arr citation.suffix)
  /-- Should a key be repeated, its other values are texts as well. -/
  ids : ∀ value, ("citationId", value) ∈ fields → ∃ s, value = .str s
  /-- Should a key be repeated, its other values are arrays as well. -/
  suffixes : ∀ value, ("citationSuffix", value) ∈ fields → ∃ items, value = .arr items

/-- The value stands for the citation. -/
inductive Json.IsCitation : Json → Citation → Prop
  | object {fields : List (String × Json)} {citation : Citation} :
      citation.InFields fields → IsCitation (.obj fields) citation
  | id (id : String) : IsCitation (.arr [.str id]) ⟨id, []⟩
  | idAndSuffix (id : String) (suffix : List Json) :
      IsCitation (.arr [.str id, .arr suffix]) ⟨id, suffix⟩

namespace Citation

open Json (asText asItems check checkFields required optional)

theorem checkFields_eq_ok_iff {fields : List (String × Json)} :
    checkFields [("citationId", check asText), ("citationSuffix", check asItems)] fields = .ok () ↔
      (∀ value, ("citationId", value) ∈ fields → ∃ s, value = .str s) ∧
        ∀ value, ("citationSuffix", value) ∈ fields → ∃ items, value = .arr items := by
  rw [Json.checkFields_eq_ok_iff]
  constructor
  · intro h
    constructor
    · intro value hvalue
      obtain ⟨s, hs⟩ := Json.check_eq_ok_iff.mp (h _ hvalue (check asText) rfl)
      exact ⟨s, Json.asText_eq_ok_iff.mp hs⟩
    · intro value hvalue
      obtain ⟨items, hitems⟩ := Json.check_eq_ok_iff.mp (h _ hvalue (check asItems) rfl)
      exact ⟨items, Json.asItems_eq_ok_iff.mp hitems⟩
  · rintro ⟨hids, hsuffixes⟩ ⟨key, value⟩ hfield checked hchecked
    -- the two keys are the only ones with a check
    by_cases hid : key = "citationId"
    · subst hid
      obtain ⟨s, rfl⟩ := hids value hfield
      cases hchecked
      rfl
    · by_cases hsuffix : key = "citationSuffix"
      · subst hsuffix
        obtain ⟨items, rfl⟩ := hsuffixes value hfield
        cases hchecked
        rfl
      · simp [List.lookup_cons, beq_eq_false_iff_ne.mpr hid, beq_eq_false_iff_ne.mpr hsuffix]
          at hchecked

variable {citation : Citation} {value : Json}

theorem read_eq_ok_iff {fields : List (String × Json)} {absent : Json.ShapeError} :
    (do
      checkFields [("citationId", check asText), ("citationSuffix", check asItems)] fields
      let id ← required fields "citationId" absent asText
      let suffix ← optional fields "citationSuffix" [] asItems
      return (⟨id, suffix⟩ : Citation)) = .ok citation ↔ citation.InFields fields := by
  constructor
  · intro h
    obtain ⟨⟨⟩, hchecked, h⟩ := Except.bind_eq_ok.mp h
    obtain ⟨id, hid, h⟩ := Except.bind_eq_ok.mp h
    obtain ⟨suffix, hsuffix, ⟨⟩⟩ := Except.bind_eq_ok.mp h
    obtain ⟨hids, hsuffixes⟩ := checkFields_eq_ok_iff.mp hchecked
    obtain ⟨_, hlookup, htext⟩ := Json.required_eq_ok_iff.mp hid
    obtain rfl := Json.asText_eq_ok_iff.mp htext
    refine ⟨hlookup, ?_, hids, hsuffixes⟩
    rcases Json.optional_eq_ok_iff.mp hsuffix with ⟨hnone, rfl⟩ | ⟨_, hsome, hitems⟩
    · exact Or.inl ⟨hnone, rfl⟩
    · obtain rfl := Json.asItems_eq_ok_iff.mp hitems
      exact Or.inr hsome
  · rintro ⟨hid, hsuffix, hids, hsuffixes⟩
    refine Except.bind_eq_ok.mpr ⟨(), checkFields_eq_ok_iff.mpr ⟨hids, hsuffixes⟩, ?_⟩
    refine Except.bind_eq_ok.mpr ⟨citation.id, Json.required_eq_ok_iff.mpr ⟨_, hid, rfl⟩, ?_⟩
    refine Except.bind_eq_ok.mpr ⟨citation.suffix, Json.optional_eq_ok_iff.mpr ?_, rfl⟩
    rcases hsuffix with ⟨hnone, hempty⟩ | hsome
    · exact Or.inl ⟨hnone, hempty.symm⟩
    · exact Or.inr ⟨_, hsome, rfl⟩

theorem inFields_zip_iff {items : List Json} :
    items.length ≤ keys.length ∧ citation.InFields (keys.zip items) ↔
      (Json.arr items).IsCitation citation := by
  constructor
  · rintro ⟨hlength, hfields⟩
    obtain ⟨id, suffix⟩ := citation
    match items, hlength, hfields with
    | [], _, hfields => exact absurd hfields.id (by simp [keys])
    | [first], _, hfields =>
      obtain rfl : first = .str id := Option.some.inj hfields.id
      obtain ⟨-, rfl⟩ | hsome := hfields.suffix
      · exact .id id
      · cases hsome
    | [first, second], _, hfields =>
      obtain rfl : first = .str id := Option.some.inj hfields.id
      obtain ⟨hnone, -⟩ | hsome := hfields.suffix
      · cases hnone
      · obtain rfl : second = .arr suffix := Option.some.inj hsome
        exact .idAndSuffix id suffix
    | _ :: _ :: _ :: _, hlength, _ => simp [keys] at hlength
  · intro h
    cases h with
    | id id =>
      refine ⟨by simp [keys], rfl, Or.inl ⟨rfl, rfl⟩, ?_, ?_⟩ <;> simp [keys]
    | idAndSuffix id suffix =>
      refine ⟨by simp [keys], rfl, Or.inr rfl, ?_, ?_⟩ <;> simp [keys]

/-- Exactly the values that stand for citations are read as citations. -/
theorem ofJson_eq_ok_iff : ofJson value = .ok citation ↔ value.IsCitation citation := by
  rw [ofJson, Json.asRecord_eq_ok_iff]
  simp only [read_eq_ok_iff]
  constructor
  · rintro (⟨fields, rfl, hfields⟩ | ⟨items, rfl, hitems⟩)
    · exact .object hfields
    · exact inFields_zip_iff.mp hitems
  · intro h
    match value, h with
    | .obj fields, .object hfields => exact Or.inl ⟨fields, rfl, hfields⟩
    | .arr items, h => exact Or.inr ⟨items, rfl, inFields_zip_iff.mpr h⟩

end Citation

/-! ## Cite nodes -/

/-- The value is an object with an array of these citations in front of its contents. -/
def Json.IsCite (raw : Json) (citations : List Citation) : Prop :=
  ∃ fields items rest, raw = .obj fields ∧ fields.lookup "c" = some (.arr (.arr items :: rest)) ∧
    List.Forall₂ IsCitation items citations

namespace Cite

variable {raw : Json} {cite : Cite}

theorem list?_eq_some_iff {items : List Json} :
    list? raw = some items ↔
      ∃ fields rest, raw = .obj fields ∧ fields.lookup "c" = some (.arr (.arr items :: rest)) := by
  constructor
  · intro h
    rw [list?] at h
    split at h
    · rename_i found hfound
      cases h
      obtain ⟨contents, hcontents, hhead⟩ := Option.bind_eq_some_iff.mp hfound
      match raw, contents, hcontents, hhead with
      | .obj fields, .arr (_ :: rest), hcontents, rfl => exact ⟨fields, rest, rfl, hcontents⟩
    · cases h
  · rintro ⟨fields, rest, rfl, hcontents⟩
    simp [list?, Json.get?, hcontents, Json.head?]

/-- Exactly the values with citations are read as cite nodes, and the node keeps the value. -/
theorem ofJson_eq_ok_iff : ofJson raw = .ok cite ↔ cite.raw = raw ∧ raw.IsCite cite.citations := by
  have hlists : ∀ items citations, items.mapM Citation.ofJson = .ok citations ↔
      List.Forall₂ Json.IsCitation items citations := by
    intro items citations
    simp only [Except.mapM_eq_ok_iff, Citation.ofJson_eq_ok_iff]
  rw [ofJson]
  constructor
  · intro h
    split at h
    · cases h
    · rename_i items hitems
      split at h
      · rename_i citations hcitations
        cases h
        obtain ⟨fields, rest, rfl, hcontents⟩ := list?_eq_some_iff.mp hitems
        exact ⟨rfl, fields, items, rest, rfl, hcontents, (hlists items citations).mp hcitations⟩
      · cases h
  · rintro ⟨rfl, fields, items, rest, hraw, hcontents, hcitations⟩
    have hitems : list? cite.raw = some items :=
      list?_eq_some_iff.mpr ⟨fields, rest, hraw, hcontents⟩
    rw [hitems]
    dsimp only
    rw [(hlists items cite.citations).mpr hcitations]

end Cite

end CitationFilter
