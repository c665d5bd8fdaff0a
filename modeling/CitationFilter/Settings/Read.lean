import CitationFilter.Settings.Basic
import CitationFilter.Settings.Skip

/-!
# Reading settings

The settings are a record, in which the settings of the engine are a record too. A record may have
its name in front. A setting that is left out keeps its default, one that is not known is skipped,
and none may be given twice.

Attributes in front of the record extend the notation. Only one of them matters here: with it, an
optional value need not be marked as being there.
-/

namespace CitationFilter

namespace Settings

namespace Reader

/-! ## Attributes -/

/-- The extensions of the notation. -/
inductive Extension where
  | implicitWrapper
  | implicitSome
  | implicitVariantWrapper
deriving DecidableEq, Repr

/-- The extension with a name. -/
def Extension.named? (name : String) : Option Extension :=
  if name = "unwrap_newtypes" then some .implicitWrapper
  else if name = "implicit_some" then some .implicitSome
  else if name = "unwrap_variant_newtypes" then some .implicitVariantWrapper
  else none

/-- Reads an extension. -/
def extension : Reader Extension := do
  match Extension.named? (← name) with
  | some e => return e
  | none => failure

/-- Reads the extensions of an attribute, with commas between; there are fewer than `fuel`. -/
def extensionsWithin : Nat → Reader (List Extension)
  | 0 => failure
  | fuel + 1 => do
    let e ← extension
    let separated ← comma
    match separated, ← atNameChar with
    | false, true => failure
    | true, true => return e :: (← extensionsWithin fuel)
    | _, false => return [e]

/-- Reads an attribute. -/
def oneAttribute : Reader (List Extension) := do
  expectSpaced "#"
  expectSpaced "!"
  expectSpaced "["
  expectSpaced "enable"
  expectSpaced "("
  let extensions ← extensionsWithin ((← get).length + 1)
  space
  expectSpaced ")"
  expectSpaced "]"
  return extensions

/-- Reads the attributes in front of the record; there are fewer than `fuel`. -/
def attributesWithin : Nat → Reader (List Extension)
  | 0 => failure
  | fuel + 1 => do
    space
    if (← next?) = some '#' then
      let extensions ← oneAttribute
      return extensions ++ (← attributesWithin fuel)
    else return []

/-! ## Records -/

/-- How the fields of a record are read: each known name with a reader of a change. -/
abbrev Fields (α : Type) := List (String × Reader (α → α))

/-- Reads the value of a field: the name if it is known, and the change that the value makes. -/
def fieldValue {α : Type} (known : Fields α) (skip : Reader Unit) (key : String) :
    Reader (Option String × (α → α)) := do
  match known.lookup key with
  | some value => return (some key, ← value)
  | none =>
    skip
    return (none, id)

/-- Reads a record with this name or without a name, as the change that all its fields make. -/
def record {α : Type} (recordName : String) (known : Fields α) (skip : Reader Unit) :
    Reader (α → α) := do
  if ← atNameChar then
    if (← name) ≠ recordName then failure
  space
  expect "("
  let fields ← parts ')' (field name (fieldValue known skip))
  if (fields.filterMap (·.1)).Nodup then
    return fields.foldl (fun change f ↦ f.2 ∘ change) id
  else failure

/-- Reads a list of texts. -/
def texts : Reader (List String) := do
  expect "["
  parts ']' text

/-- Reads an optional text. -/
def optionalText (implicitSome : Bool) : Reader (Option String) := do
  if ← accept "None" then return none
  else if ← accept "Some" then
    space
    if ← accept "(" then
      space
      let s ← text
      let _ ← comma
      expect ")"
      return some s
    else if implicitSome then return some (← text)
    else failure
  else if implicitSome then return some (← text)
  else failure

/-! ## The settings -/

/-- How deep values may be nested in all. -/
def deepest : Nat := 128

/-- Reads the settings of the engine. -/
def engine (implicitSome : Bool) : Reader (EngineSettings → EngineSettings) :=
  record "EngineConfig"
    [("command", do let s ← text; return fun e ↦ { e with command := s }),
      ("args", do let ss ← texts; return fun e ↦ { e with args := ss }),
      ("lang", do let s ← text; return fun e ↦ { e with lang := s })]
    (skipWithin implicitSome (deepest - 4))

/-- Reads all settings. -/
def settings (implicitSome : Bool) : Reader (Settings → Settings) :=
  record "Config"
    [("engine", do
        let change ← engine implicitSome
        return fun s ↦ { s with engine := change .default }),
      ("locales_dir", do
        let dir ← optionalText implicitSome
        return fun s ↦ { s with localesDir := dir }),
      ("locales", do let ss ← texts; return fun s ↦ { s with locales := ss }),
      ("raw_format", do let f ← text; return fun s ↦ { s with rawFormat := f })]
    (skipWithin implicitSome (deepest - 2))

/-- Reads a whole text as settings. -/
def whole : Reader Settings := do
  let extensions ← attributesWithin ((← get).length + 1)
  let change ← settings (extensions.contains .implicitSome)
  space
  if (← get).isEmpty then return change .default else failure

end Reader

/-- Reads settings from the text of a configuration file. -/
def ofText? (text : String) : Option Settings := Reader.whole.run' text.toList

end Settings

end CitationFilter
