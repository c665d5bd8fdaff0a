import CitationFilter.Json.Shape
import CitationFilter.Proofs.Except

/-!
# What the readers of records accept

A record is read by way of small readers, for texts, arrays and fields. Here is what each of them
accepts, and what it makes of it. How a rejection is worded plays no part: a record that is read has
been described once all its small readers have been.

A field is checked wherever it occurs, but its value is looked up, so should a key be repeated, all
of its values are checked and the first one counts.
-/

namespace CitationFilter

namespace Json

variable {α β : Type} {value : Json}

/-! ## Values -/

theorem asText_eq_ok_iff {s : String} : value.asText = .ok s ↔ value = .str s := by
  cases value <;> simp [asText]

theorem bind_text?_eq_some_iff {found : Option Json} {s : String} :
    found.bind text? = some s ↔ found = some (.str s) := by
  rcases found with _ | value
  · simp
  · cases value <;> simp [text?]

theorem asBool_eq_ok_iff {b : Bool} : value.asBool = .ok b ↔ value = .bool b := by
  cases value <;> simp [asBool]

theorem asItems_eq_ok_iff {items : List Json} : value.asItems = .ok items ↔ value = .arr items := by
  cases value <;> simp [asItems]

/-- An array is read element by element, and all of them have to be accepted. -/
theorem asList_eq_ok_iff {read : Json → Except ShapeError α} {as : List α} :
    asList read value = .ok as ↔
      ∃ items, value = .arr items ∧ List.Forall₂ (fun item a ↦ read item = .ok a) items as := by
  simp only [asList, Except.bind_eq_ok, asItems_eq_ok_iff, Except.mapM_eq_ok_iff]

/-- Of a pair there are two elements, no more and no fewer. -/
theorem asPair_eq_ok_iff {first : Json → Except ShapeError α} {second : Json → Except ShapeError β}
    {wanted : Wanted} {a : α} {b : β} :
    asPair first second wanted value = .ok (a, b) ↔
      ∃ u v, value = .arr [u, v] ∧ first u = .ok a ∧ second v = .ok b := by
  constructor
  · intro h
    match value, h with
    | .arr [u], h =>
      obtain ⟨_, -, ⟨⟩⟩ := Except.bind_eq_ok.mp h
    | .arr [u, v], h =>
      obtain ⟨_, hu, h⟩ := Except.bind_eq_ok.mp h
      obtain ⟨_, hv, ⟨⟩⟩ := Except.bind_eq_ok.mp h
      exact ⟨u, v, rfl, hu, hv⟩
    | .arr (u :: v :: _ :: _), h =>
      obtain ⟨_, -, h⟩ := Except.bind_eq_ok.mp h
      obtain ⟨_, -, ⟨⟩⟩ := Except.bind_eq_ok.mp h
  · rintro ⟨u, v, rfl, hu, hv⟩
    rw [asPair]
    simp [hu, hv, bind, Except.bind]

/-! ## Fields -/

theorem checkFields_eq_ok_iff {checks : List (String × (Json → Except ShapeError Unit))}
    {fields : List (String × Json)} :
    checkFields checks fields = .ok () ↔
      ∀ field ∈ fields, ∀ check ∈ checks.lookup field.1, check field.2 = .ok () := by
  induction fields with
  | nil => simp [checkFields]
  | cons field rest ih =>
    obtain ⟨key, value⟩ := field
    rw [checkFields, List.forall_mem_cons, ← ih]
    rcases checks.lookup key with _ | check
    · simp
    · constructor
      · intro h
        obtain ⟨⟨⟩, hcheck, hrest⟩ := Except.bind_eq_ok.mp h
        simp [hcheck, hrest]
      · intro h
        exact Except.bind_eq_ok.mpr ⟨(), by simpa using h⟩

theorem check_eq_ok_iff {read : Json → Except ShapeError α} :
    check read value = .ok () ↔ ∃ a, read value = .ok a := by
  simp [check, Except.map_eq_ok]

section Fields

variable {read : Json → Except ShapeError α} {fields : List (String × Json)} {key : String} {a : α}

theorem required_eq_ok_iff {absent : ShapeError} :
    required fields key absent read = .ok a ↔
      ∃ v, fields.lookup key = some v ∧ read v = .ok a := by
  rw [required]
  cases fields.lookup key <;> simp

theorem optional_eq_ok_iff {default : α} :
    optional fields key default read = .ok a ↔
      fields.lookup key = none ∧ default = a ∨
        ∃ v, fields.lookup key = some v ∧ read v = .ok a := by
  rw [optional]
  cases fields.lookup key <;> simp

end Fields

/-! ## Records -/

/-- A record is an object with the fields, or an array of their values in order, of which some may
be left out at the end if the reader does without them. -/
theorem asRecord_eq_ok_iff {record : Record} {keys : List String}
    {read : List (String × Json) → (String → ShapeError) → Except ShapeError α} {a : α} :
    asRecord record keys read value = .ok a ↔
      (∃ fields, value = .obj fields ∧ read fields .missingField = .ok a) ∨
      ∃ items, value = .arr items ∧ items.length ≤ keys.length ∧
        read (keys.zip items) (fun _ ↦ .tooShort items.length (.record record)) = .ok a := by
  cases value with
  | obj fields => simp [asRecord]
  | arr items =>
    rw [asRecord, Except.bind_eq_ok]
    by_cases hlong : keys.length < items.length
    · simp [hlong, Nat.not_le.mpr hlong]
    · simp [hlong, Nat.not_lt.mp hlong]
  | _ => simp [asRecord]

end Json

end CitationFilter
