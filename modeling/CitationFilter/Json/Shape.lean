import CitationFilter.Json.Text
import CitationFilter.Text.Quoted

/-!
# Reading records out of JSON values

A value that is valid JSON may still have the wrong shape. This file says what can be wrong with
it, how that is worded, and how the small readers report it; the records themselves are read where
they are defined.

A record is an object whose fields are looked up by name, and keys it does not know are ignored.
Most records may also be written as the array of their fields. In both forms the fault that is
reported is the first one in the order of writing, and a missing field is only reported when
nothing that is there is wrong.
-/

namespace CitationFilter

/-- The records that are read from JSON values. -/
inductive Json.Record where
  | item
  | citation
  | cluster
  | clusterItem
  | clusterProperties
  | clusterPosition
  | clusterStatus
deriving DecidableEq, Repr

/-- What a reader hoped to find. -/
inductive Json.Wanted where
  | text
  | boolean
  | sequence
  | map
  | pair
  /-- A natural number of 64 bits. -/
  | count
  | record (r : Json.Record)
deriving DecidableEq, Repr

/-- What a reader found instead: an atom, or the kind of a container. -/
inductive Json.Found where
  | null
  | bool (b : Bool)
  | num (n : Json.Number)
  | str (s : String)
  | sequence
  | map
deriving DecidableEq, Repr

/-- A way in which a value has the wrong shape. -/
inductive Json.ShapeError where
  | wrongType (found : Json.Found) (wanted : Json.Wanted)
  /-- A value of the right type that is out of range. -/
  | wrongValue (found : Json.Found) (wanted : Json.Wanted)
  /-- An array with too few elements, of which there are `length`. -/
  | tooShort (length : Nat) (wanted : Json.Wanted)
  /-- An array with too many elements, of which there are `length`. -/
  | tooLong (length : Nat)
  | missingField (key : String)
  | duplicateField (key : String)
  /-- None of the alternatives of a choice fits. -/
  | noVariant (choice : String)
deriving DecidableEq, Repr

namespace Json

/-! ## Wording -/

/-- The name under which messages know a record. -/
def Record.name : Record → String
  | .item => "CSLItem"
  | .citation => "Citation"
  | .cluster => "Cluster"
  | .clusterItem => "ClusterItem"
  | .clusterProperties => "ClusterProperties"
  | .clusterPosition => "ClusterPosition"
  | .clusterStatus => "ClusterStatus"

/-- How many fields a record has. -/
def Record.size : Record → Nat
  | .item => 2
  | .citation => 2
  | .cluster => 3
  | .clusterItem => 2
  | .clusterProperties => 1
  | .clusterPosition => 2
  | .clusterStatus => 1

/-- The kind of a record; only a position is known by the order of its fields. -/
def Record.kind : Record → String
  | .clusterPosition => "tuple struct "
  | _ => "struct "

/-- What was wanted, in words. -/
def Wanted.words : Wanted → String
  | .text => "a string"
  | .boolean => "a boolean"
  | .sequence => "a sequence"
  | .map => "a map"
  | .pair => "a tuple of size 2"
  | .count => "usize"
  | .record r => r.kind ++ r.name

/-- What was wanted where an array is too short, in words. -/
def Wanted.lengthWords : Wanted → String
  | .record r =>
    r.kind ++ r.name ++ " with " ++ toString r.size ++
      if r.size = 1 then " element" else " elements"
  | wanted => wanted.words

/-- The text of a number as a string. -/
def Number.text (n : Number) : String := String.ofList n.chars

/-- What was found, in words. -/
def Found.words : Found → String
  | .null => "null"
  | .bool b => "boolean `" ++ toString b ++ "`"
  | .num (.int i) => "integer `" ++ (Number.int i).text ++ "`"
  | .num (.float x) => "floating point `" ++ (Number.float x).text ++ "`"
  | .str s => "string " ++ Text.quoted s
  | .sequence => "sequence"
  | .map => "map"

/-- The wording of a fault. -/
def ShapeError.message : ShapeError → String
  | .wrongType found wanted => "invalid type: " ++ found.words ++ ", expected " ++ wanted.words
  | .wrongValue found wanted => "invalid value: " ++ found.words ++ ", expected " ++ wanted.words
  | .tooShort length wanted =>
    "invalid length " ++ toString length ++ ", expected " ++ wanted.lengthWords
  | .tooLong length => "invalid length " ++ toString length ++ ", expected fewer elements in array"
  | .missingField key => "missing field `" ++ key ++ "`"
  | .duplicateField key => "duplicate field `" ++ key ++ "`"
  | .noVariant choice => "data did not match any variant of untagged enum " ++ choice

/-- The kind of a value, as a fault reports it. -/
def found : Json → Found
  | .null => .null
  | .bool b => .bool b
  | .num n => .num n
  | .str s => .str s
  | .arr _ => .sequence
  | .obj _ => .map

/-! ## Small readers -/

/-- Reads a text. -/
def asText : Json → Except ShapeError String
  | .str s => .ok s
  | v => .error (.wrongType v.found .text)

/-- Reads a truth value. -/
def asBool : Json → Except ShapeError Bool
  | .bool b => .ok b
  | v => .error (.wrongType v.found .boolean)

/-- Reads an array. -/
def asItems : Json → Except ShapeError (List Json)
  | .arr items => .ok items
  | v => .error (.wrongType v.found .sequence)

/-- Reads an object. -/
def asFields : Json → Except ShapeError (List (String × Json))
  | .obj fields => .ok fields
  | v => .error (.wrongType v.found .map)

/-- The natural numbers that fit into 64 bits. -/
def countLimit : Nat := twoTo 64

/-- The natural number of 64 bits that a number is, if it is one. -/
def Number.count? : Number → Option Nat
  | .int i => if 0 ≤ i ∧ i < countLimit then some i.toNat else none
  | .float _ => none

/-- Reads a natural number of 64 bits. -/
def asCount : Json → Except ShapeError Nat
  | .num (.int i) =>
    match (Number.int i).count? with
    | some n => .ok n
    | none => .error (.wrongValue (.num (.int i)) .count)
  | v => .error (.wrongType v.found .count)

/-- Reads an array whose elements are all read in the same way. -/
def asList {α : Type} (read : Json → Except ShapeError α) (v : Json) :
    Except ShapeError (List α) := do
  (← v.asItems).mapM read

/-! ## Fields -/

variable {α : Type}

/-- Reports the first field, in the order of writing, that fails the check of its key. -/
def checkFields (checks : List (String × (Json → Except ShapeError Unit))) :
    List (String × Json) → Except ShapeError Unit
  | [] => .ok ()
  | (key, value) :: rest => do
    match checks.lookup key with
    | some check => check value
    | none => pure ()
    checkFields checks rest

/-- Uses a reader as a check. -/
def check (read : Json → Except ShapeError α) (v : Json) : Except ShapeError Unit :=
  (read v).map fun _ ↦ ()

/-- Reads a field that has to be there. -/
def required (fields : List (String × Json)) (key : String) (absent : ShapeError)
    (read : Json → Except ShapeError α) : Except ShapeError α :=
  match fields.lookup key with
  | some value => read value
  | none => .error absent

/-- Reads a field that may be left out. -/
def optional (fields : List (String × Json)) (key : String) (default : α)
    (read : Json → Except ShapeError α) : Except ShapeError α :=
  match fields.lookup key with
  | some value => read value
  | none => .ok default

/-- Reads a record whose fields are named in `keys`. The reader gets the fields and the fault to
report for a required one that is absent. -/
def asRecord (record : Record) (keys : List String)
    (read : List (String × Json) → (String → ShapeError) → Except ShapeError α) :
    Json → Except ShapeError α
  | .obj fields => read fields .missingField
  | .arr items => do
    let value ← read (keys.zip items) fun _ ↦ .tooShort items.length (.record record)
    if keys.length < items.length then .error (.tooLong items.length) else .ok value
  | v => .error (.wrongType v.found (.record record))

/-- Reads an array of exactly two elements. -/
def asPair {β : Type} (first : Json → Except ShapeError α) (second : Json → Except ShapeError β)
    (wanted : Wanted) : Json → Except ShapeError (α × β)
  | .arr items => do
    match items with
    | [] => .error (.tooShort 0 wanted)
    | [a] =>
      let _ ← first a
      .error (.tooShort 1 wanted)
    | a :: b :: rest =>
      let x ← first a
      let y ← second b
      if rest.isEmpty then .ok (x, y) else .error (.tooLong items.length)
  | v => .error (.wrongType v.found wanted)

/-! ## Values in words -/

mutual

/-- A value with the kind of every part spelled out, as messages show rejected values. -/
def described : Json → String
  | .null => "Null"
  | .bool b => "Bool(" ++ toString b ++ ")"
  | .num n => "Number(" ++ n.text ++ ")"
  | .str s => "String(" ++ Text.quoted s ++ ")"
  | .arr items => "Array [" ++ describedItems items ++ "]"
  | .obj fields => "Object \x7b" ++ describedFields fields ++ "\x7d"

/-- The elements of an array in words, with commas between. -/
def describedItems : List Json → String
  | [] => ""
  | [item] => item.described
  | item :: rest => item.described ++ ", " ++ describedItems rest

/-- The fields of an object in words, with commas between. -/
def describedFields : List (String × Json) → String
  | [] => ""
  | [(key, value)] => Text.quoted key ++ ": " ++ value.described
  | (key, value) :: rest =>
    Text.quoted key ++ ": " ++ value.described ++ ", " ++ describedFields rest

end

end Json

end CitationFilter
