import CitationFilter.Decimal.Binary64

/-!
# JSON values

The value type that documents, library items and engine messages share. An object keeps its fields
as a list of pairs, because the order in which they are written is part of what the filter has to
preserve.

Nothing in the type forbids a repeated key. A text may repeat one, and some readers have to notice;
`Json.merged` is the value in which repetitions are resolved at every depth, each key keeping the
place of its first occurrence and the value of its last.
-/

namespace CitationFilter

/-- A number is kept as an integer when it was written as one that fits, else as a binary number. -/
inductive Json.Number where
  | int (i : Int)
  | float (x : Binary64)
deriving DecidableEq, Repr

/-- A JSON value with the fields of its objects in order. -/
inductive Json where
  | null
  | bool (b : Bool)
  | num (n : Json.Number)
  | str (s : String)
  | arr (items : List Json)
  | obj (fields : List (String × Json))
deriving Repr

instance : Inhabited Json := ⟨.null⟩

namespace Json

/-! ## Looking into a value -/

/-- The field of a key, if the value is an object that has it. -/
def get? (key : String) : Json → Option Json
  | .obj fields => fields.lookup key
  | _ => none

/-- The first element, if the value is an array that has one. -/
def head? : Json → Option Json
  | .arr (item :: _) => some item
  | _ => none

/-- The text, if the value is one. -/
def text? : Json → Option String
  | .str s => some s
  | _ => none

/-! ## Fields with one value per key -/

variable {α : Type}

/-- Gives a key a value: in the place where the key stands, or at the end. -/
def put (key : String) (value : α) : List (String × α) → List (String × α)
  | [] => [(key, value)]
  | (k, v) :: rest => if k = key then (key, value) :: rest else (k, v) :: put key value rest

/-- Resolves repeated keys: the place of the first occurrence, the value of the last. -/
def mergedFields (fields : List (String × α)) : List (String × α) :=
  fields.foldl (fun merged field ↦ put field.1 field.2 merged) []

mutual

/-- The value with repeated keys resolved at every depth. -/
def merged : Json → Json
  | .arr items => .arr (mergedItems items)
  | .obj fields => .obj (mergedFields (mergedValues fields))
  | .null => .null
  | .bool b => .bool b
  | .num n => .num n
  | .str s => .str s

/-- `merged` on every element. -/
def mergedItems : List Json → List Json
  | [] => []
  | item :: rest => item.merged :: mergedItems rest

/-- `merged` on the value of every field. -/
def mergedValues : List (String × Json) → List (String × Json)
  | [] => []
  | (key, value) :: rest => (key, value.merged) :: mergedValues rest

end

end Json

end CitationFilter
