import CitationFilter.Error
import CitationFilter.Json.Text

/-!
# Bibliographic items

Only the id of an item is looked at. All other fields are kept as they are and handed to the engine,
which is the only one to understand them.

Libraries exist in several formats, and in all of them an item is made from its fields in the order
of writing, with repetitions. `Item.ofFields` does this for any kind of field value, given how such
a value is read as an id and as a JSON value.
-/

namespace CitationFilter

/-- A bibliographic item. -/
structure Item where
  /-- The id, which is a text even where it is written as a number. -/
  id : String
  /-- All other fields, one value per key. -/
  fields : List (String × Json)
deriving Repr

namespace Item

variable {α : Type}

/-- The name of the field that holds the id. -/
def idKey : String := "id"

/-- Finds the id, of which there is exactly one. -/
def idOf (idText? : α → Option String) (found : Option String) :
    List (String × α) → Except Json.ShapeError String
  | [] =>
    match found with
    | some id => .ok id
    | none => .error (.missingField idKey)
  | (key, value) :: rest =>
    if key = idKey then
      match found, idText? value with
      | some _, _ => .error (.duplicateField idKey)
      | none, some id => idOf idText? (some id) rest
      | none, none => .error (.noVariant "Id")
    else idOf idText? found rest

/-- Makes an item from its fields. -/
def ofFields (idText? : α → Option String) (value : α → Json) (fields : List (String × α)) :
    Except Json.ShapeError Item := do
  let id ← idOf idText? none fields
  let others := (fields.filter (·.1 ≠ idKey)).map fun (key, v) ↦ (key, value v)
  return ⟨id, Json.mergedFields others⟩

/-- The value that the engine gets for an item. -/
def toJson (item : Item) : Json := .obj ((idKey, .str item.id) :: item.fields)

/-! ## Ids -/

/-- The greatest number that is an id as it is written; greater ones are first rounded. -/
def greatestExactId : Int := twoTo 63 - 1

/-- The text of a binary number in an id: all digits, without an exponent. -/
def floatId (x : Binary64) : String :=
  String.ofList ((if x.negative then ['-'] else []) ++ (x.shortest .up).positional [])

/-- The text of a number in an id. -/
def numberId : Json.Number → String
  | .int i =>
    if i ≤ greatestExactId then (Json.Number.int i).text
    else ((Binary64.ofNat i.toNat).map floatId).getD (Json.Number.int i).text
  | .float x => floatId x

/-- The id that a JSON value stands for. -/
def idText? : Json → Option String
  | .str s => some s
  | .num n => some (numberId n)
  | _ => none

/-! ## Libraries in JSON -/

/-- Reads an item from a value in which no repetition has been resolved. -/
def ofJson : Json → Except Json.ShapeError Item
  | .obj fields => ofFields idText? Json.merged fields
  | value => .error (.wrongType value.found (.record .item))

/-- Reads a library from its JSON text. -/
def listOfJsonText (text : String) : Except Error (List Item) :=
  match Json.readAll? text with
  | none => .error (.library .unreadable)
  | some value => (Json.asList ofJson value).mapError fun fault ↦ .library (.shape fault)

end Item

end CitationFilter
