import CitationFilter.Json.Basic
import CitationFilter.Yaml.Plain
import CitationFilter.Yaml.Tree

/-!
# The value of a YAML text

The tree of a text becomes a value when its scalars are taken for what they stand for and its
aliases are replaced by the values that they repeat.

An anchor gets as number how many names there have been before it. A name that is used again does
not count twice, so numbers may collide, and then the last value with a number is the one that its
aliases repeat. A value may repeat itself, which is why the depth of a value and the number of
replacements are limited.
-/

namespace CitationFilter

namespace Yaml

/-- A value. The fields of a mapping are in order, and their keys may be any values. -/
inductive Value where
  | atom (a : Atom)
  | sequence (items : List Value)
  | mapping (fields : List (Value × Value))
deriving Repr

instance : Inhabited Value := ⟨.atom .null⟩

namespace Tree

/-! ## The numbers of anchors -/

/-- The numbers of the names that have been used, one for each name. -/
abbrev Names := List (String × Nat)

/-- The values that have a number, in the order in which they begin. -/
abbrev Definitions := List (Nat × Tree Nat)

/-- The number of a value that begins, if it has an anchor. -/
def announced (names : Names) (p : Properties) : Option Nat × Names :=
  match p.anchor with
  | none => (none, names)
  | some name => (some names.length, Json.put name names.length names)

/-- The definition of a value that has a number. -/
def defined (number : Option Nat) (t : Tree Nat) : Definitions :=
  match number with
  | none => []
  | some n => [(n, t)]

mutual

/-- Replaces the names of a tree by numbers. An alias can only repeat what has begun before it. -/
def numbered (names : Names) : Tree String → Option (Tree Nat × Names × Definitions)
  | .alias name => (names.lookup name).map fun n ↦ (.alias n, names, [])
  | .scalar p text isPlain =>
    let (number, names) := announced names p
    some (.scalar p text isPlain, names, defined number (.scalar p text isPlain))
  | .sequence p items => do
    let (number, names) := announced names p
    let (items, names, definitions) ← numberedItems names items
    return (.sequence p items, names, defined number (.sequence p items) ++ definitions)
  | .mapping p fields => do
    let (number, names) := announced names p
    let (fields, names, definitions) ← numberedFields names fields
    return (.mapping p fields, names, defined number (.mapping p fields) ++ definitions)

/-- Replaces the names of the items of a sequence. -/
def numberedItems (names : Names) :
    List (Tree String) → Option (List (Tree Nat) × Names × Definitions)
  | [] => some ([], names, [])
  | item :: rest => do
    let (item, names, first) ← numbered names item
    let (rest, names, more) ← numberedItems names rest
    return (item :: rest, names, first ++ more)

/-- Replaces the names of the fields of a mapping. -/
def numberedFields (names : Names) :
    List (Tree String × Tree String) → Option (List (Tree Nat × Tree Nat) × Names × Definitions)
  | [] => some ([], names, [])
  | (key, value) :: rest => do
    let (key, names, first) ← numbered names key
    let (value, names, second) ← numbered names value
    let (rest, names, more) ← numberedFields names rest
    return ((key, value) :: rest, names, first ++ second ++ more)

end

/-! ## Size -/

mutual

/-- How many tokens of content a tree has, where a collection has one for each end. -/
def size : Tree Nat → Nat
  | .alias _ => 1
  | .scalar .. => 1
  | .sequence _ items => 2 + itemsSize items
  | .mapping _ fields => 2 + fieldsSize fields

/-- The size of the items of a sequence. -/
def itemsSize : List (Tree Nat) → Nat
  | [] => 0
  | item :: rest => item.size + itemsSize rest

/-- The size of the fields of a mapping. -/
def fieldsSize : List (Tree Nat × Tree Nat) → Nat
  | [] => 0
  | (key, value) :: rest => key.size + value.size + fieldsSize rest

end

/-! ## Replacing aliases -/

/-- What replacing needs to know. -/
structure Context where
  /-- The value with a number. -/
  target? : Nat → Option (Tree Nat)
  /-- How many aliases may be replaced. -/
  limit : Nat

/-- A step that counts replaced aliases. -/
abbrev Counting (α : Type) := StateT Nat Option α

/-- Replaces a tree that is an alias. -/
def followed (context : Context) : Tree Nat → Counting (Tree Nat)
  | .alias n => do
    let count := (← get) + 1
    set count
    if context.limit < count then failure
    else
      match context.target? n with
      | some t => return t
      | none => failure
  | t => return t

/-- Whether a tag is a type of the text's own, which has no meaning here. -/
def isLocal (p : Properties) : Bool := p.tag.any fun tag ↦ tag.toList.head? = some '!'

/-- What a scalar stands for. -/
def atom? (p : Properties) (text : String) (isPlain : Bool) : Option Atom :=
  match p.tag with
  | some tag => Atom.ofTagged? tag text
  | none => if isPlain then Atom.ofPlain? text else some (.str text)

/-- The value of a tree, given how the trees inside are valued; without that, collections are
nested too deep. -/
def valueWith (context : Context) (inside : Option (Tree Nat → Counting Value)) (t : Tree Nat) :
    Counting Value := do
  match ← followed context t, inside with
  | .scalar p text isPlain, _ =>
    if isLocal p then failure
    else
      match atom? p text isPlain with
      | some a => return .atom a
      | none => failure
  | .sequence p items, some value =>
    if isLocal p then failure else return .sequence (← items.mapM value)
  | .mapping p fields, some value =>
    if isLocal p then failure
    else
      return .mapping (← fields.mapM fun (k, v) ↦ do
        let key ← value k
        return (key, ← value v))
  | _, _ => failure

/-- The value of a tree in which collections are nested at most so deep. -/
def valueWithin (context : Context) : Nat → Tree Nat → Counting Value
  | 0 => valueWith context none
  | depth + 1 => valueWith context (some (valueWithin context depth))

/-- How deep collections may be nested. -/
def deepest : Nat := 128

/-- How many aliases may be replaced for each token of content. -/
def replacementsEach : Nat := 100

/-- The value of a tree. -/
def value? (t : Tree String) : Option Value := do
  let (t, _, definitions) ← numbered [] t
  let context : Context := ⟨fun n ↦ definitions.reverse.lookup n, replacementsEach * t.size⟩
  let (value, _) ← (valueWithin context deepest t).run 0
  return value

end Tree

namespace Value

/-- Reads a text. Without a document its value is null. -/
def ofText? (text : String) : Option Value := do
  match ← Tree.ofText? text with
  | none => return .atom .null
  | some t => t.value?

/-! ## Values as data -/

/-- The text of a key; only texts can be keys of data. -/
def key? : Value → Option String
  | .atom (.str s) => some s
  | _ => none

/-- The data that a scalar stands for. Infinities have none. -/
def atomToJson : Atom → Json
  | .null => .null
  | .bool b => .bool b
  | .int i => .num (.int i)
  | .real (.finite x) => .num (.float x)
  | .real _ => .null
  | .str s => .str s

mutual

/-- The data that a value stands for. -/
def toJson? : Value → Option Json
  | .atom a => some (atomToJson a)
  | .sequence items => (itemsToJson? items).map .arr
  | .mapping fields => (fieldsToJson? fields).map fun fields ↦ .obj (Json.mergedFields fields)

/-- The data of the items of a sequence. -/
def itemsToJson? : List Value → Option (List Json)
  | [] => some []
  | item :: rest => do
    let item ← item.toJson?
    return item :: (← itemsToJson? rest)

/-- The data of the fields of a mapping. -/
def fieldsToJson? : List (Value × Value) → Option (List (String × Json))
  | [] => some []
  | (key, value) :: rest => do
    let key ← key.key?
    let value ← value.toJson?
    return (key, value) :: (← fieldsToJson? rest)

end

end Value

end Yaml

end CitationFilter
