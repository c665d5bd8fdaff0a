import CitationFilter.Library.Item
import CitationFilter.Yaml.Value

/-!
# The formats of a library

A library is a list of items, in JSON or in YAML; the extension of its file decides. In YAML the
list may also be the field `references` of a mapping. Whatever does not fit there has the same
fault, because both layouts are tried and neither fits.
-/

namespace CitationFilter

namespace Library

/-! ## Items in YAML -/

/-- What a scalar is as an id. -/
def atomId? : Yaml.Atom → Option String
  | .str s => some s
  | .int i => some (Item.numberId (.int i))
  | .real (.finite x) => some (Item.floatId x)
  | .real (.infinite negative) => some (if negative then "-inf" else "inf")
  | .real .notANumber => some "NaN"
  | .null => none
  | .bool _ => none

/-- The id that a value stands for. -/
def valueId? : Yaml.Value → Option String
  | .atom a => atomId? a
  | _ => none

/-- A field with its value and the data that the value stands for. -/
def field? (f : Yaml.Value × Yaml.Value) : Option (String × Yaml.Value × Json) := do
  return (← f.1.key?, f.2, ← f.2.toJson?)

/-- Reads an item. -/
def item? : Yaml.Value → Option Item
  | .mapping fields => do
    let fields ← fields.mapM field?
    (Item.ofFields (fun f ↦ valueId? f.1) (·.2) fields).toOption
  | _ => none

/-- Reads a list of items. -/
def items? : Yaml.Value → Option (List Item)
  | .sequence items => items.mapM item?
  | _ => none

/-! ## The two layouts in YAML -/

/-- The field that holds the list. -/
def listKey : String := "references"

/-- How the keys of the mapping around the list are told apart: as the key of the list, or as one
that does not matter. A key may also be the number of a field, of which the list is the first. -/
def isListKey? : Yaml.Value → Option Bool
  | .atom (.str s) => some (s = listKey)
  | .atom (.int i) => if 0 ≤ i then some (i = 0) else none
  | _ => none

/-- The list in a mapping, where it occurs exactly once. -/
def list? (fields : List (Yaml.Value × Yaml.Value)) : Option Yaml.Value := do
  let known ← fields.mapM fun f ↦ (isListKey? f.1).map fun isList ↦ (isList, f.2)
  match known.filter (·.1) with
  | [(_, list)] => some list
  | _ => none

/-- Reads a library from its data. -/
def ofValue? : Yaml.Value → Option (List Item)
  | .mapping fields => (list? fields).bind items?
  | value => items? value

/-- The fault of data that fit neither layout. -/
def noLayout : Error := .library (.shape (.noVariant "YamlLibrary"))

/-- Reads a library from its YAML text. -/
def ofYamlText (text : String) : Except Error (List Item) :=
  match Yaml.Value.ofText? text with
  | none => .error (.library .unreadable)
  | some value => (ofValue? value).elim (.error noLayout) .ok

/-! ## Choosing the format -/

/-- The last component of a path, if it is the name of a file. -/
def fileName? (path : List Char) : Option (List Char) :=
  match ((path.splitOn '/').filter fun c ↦ c ≠ [] ∧ c ≠ ['.']).getLast? with
  | some name => if name = ['.', '.'] then none else some name
  | none => none

/-- What follows the last dot of a file name, if anything comes before the dot. -/
def extension? (path : String) : Option String :=
  (fileName? path.toList).bind fun name ↦
    let ending := name.reverse.takeWhile (· ≠ '.')
    let before := name.length - ending.length
    if before ≤ 1 then none else some (String.ofList ending.reverse)

/-- Whether a file with this path is in YAML. -/
def isYaml (path : String) : Bool :=
  extension? path = some "yaml" || extension? path = some "yml"

/-- Reads the library of a file, given its path and its text. -/
def ofText (path text : String) : Except Error (List Item) :=
  if isYaml path then ofYamlText text else Item.listOfJsonText text

end Library

end CitationFilter
