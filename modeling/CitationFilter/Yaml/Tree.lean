import CitationFilter.Yaml.Token

/-!
# The tree of a YAML text

The tokens of a text are put together to the tree of its one document. A value may have an anchor
and a tag in front of it, and wherever a value may be left out the empty plain scalar stands for it.

The readers call each other as the collections nest. None of them goes on without having read a
token, at least at every second call, so the number of tokens bounds the depth of the calls.
-/

namespace CitationFilter

namespace Yaml

/-- What may stand in front of a value. -/
structure Properties where
  /-- The name under which the value can be repeated. -/
  anchor : Option String
  /-- The type of the value, written out. -/
  tag : Option String
deriving DecidableEq, Repr

/-- A value as it is written. An alias refers to another value by an `α`: by its name in the text,
and by its number once the anchors are known. -/
inductive Tree (α : Type) where
  /-- Repeats the value with an anchor. -/
  | alias (target : α)
  | scalar (properties : Properties) (text : String) (isPlain : Bool)
  | sequence (properties : Properties) (items : List (Tree α))
  | mapping (properties : Properties) (fields : List (Tree α × Tree α))
deriving Repr

/-- Nothing in front of a value. -/
def Properties.none : Properties := ⟨.none, .none⟩

namespace Tree

instance {α : Type} : Inhabited (Tree α) := ⟨.scalar .none "" true⟩

/-- What stands for a value that is left out. -/
def empty : Tree String := .scalar .none "" true

/-! ## Tags -/

/-- The handles that need no directive. -/
def defaultHandles : List (String × String) := [("!", "!"), ("!!", "tag:yaml.org,2002:")]

/-- A tag written out. -/
def resolved? (handles : List (String × String)) (t : WrittenTag) : Option String :=
  if t.handle = "" then some t.suffix else (handles.lookup t.handle).map (· ++ t.suffix)

/-- An anchor and a tag as they are written, in any order, and the tokens after them. -/
def written : List Token → Option String × Option WrittenTag × List Token
  | .anchor a :: .tag t :: rest => (some a, some t, rest)
  | .tag t :: .anchor a :: rest => (some a, some t, rest)
  | .anchor a :: rest => (some a, none, rest)
  | .tag t :: rest => (none, some t, rest)
  | rest => (none, none, rest)

/-- What stands in front of a value, and the tokens after it. -/
def properties? (handles : List (String × String)) (ts : List Token) :
    Option (Properties × List Token) :=
  match written ts with
  | (anchor, none, rest) => some (⟨anchor, none⟩, rest)
  | (anchor, some t, rest) => (resolved? handles t).map fun tag ↦ (⟨anchor, some tag⟩, rest)

/-- The tag of a scalar that is there; a lone exclamation mark says nothing about it. -/
def scalarProperties (p : Properties) : Properties :=
  if p.tag = some "!" then { p with tag := none } else p

/-! ## Values -/

/-- Whether the next token is one of these. -/
def isNext (ts : List Token) (among : List Token) : Bool :=
  match ts with
  | t :: _ => among.contains t
  | [] => false

/-- The tokens after the comma between two entries of a flow collection. -/
def afterComma? (first : Bool) (ts : List Token) : Option (List Token) :=
  if first then some ts
  else
    match ts with
    | .flowEntry :: rest => some rest
    | _ => none

/-- Where a value in a block mapping is left out. -/
def blockStops : List Token := [.key, .value, .blockEnd]

mutual

/-- Reads a value. `block` says whether it may be a block collection, and `indentless` whether it
may be a block sequence that is not indented. -/
def node? (handles : List (String × String)) :
    Nat → Bool → Bool → List Token → Option (Tree String × List Token)
  | 0, _, _, _ => none
  | _ + 1, _, _, .alias name :: rest => some (.alias name, rest)
  | fuel + 1, block, indentless, ts => do
    let (properties, rest) ← properties? handles ts
    match rest, block, indentless with
    | .scalar text isPlain :: rest, _, _ =>
      return (.scalar (scalarProperties properties) text isPlain, rest)
    | .flowSequenceStart :: rest, _, _ =>
      let (items, rest) ← flowItems? handles fuel true rest
      return (.sequence properties items, rest)
    | .flowMappingStart :: rest, _, _ =>
      let (fields, rest) ← flowFields? handles fuel true rest
      return (.mapping properties fields, rest)
    | .blockEntry :: _, _, true =>
      let (items, rest) ← plainItems? handles fuel rest
      return (.sequence properties items, rest)
    | .blockSequenceStart :: rest, true, _ =>
      let (items, rest) ← blockItems? handles fuel rest
      return (.sequence properties items, rest)
    | .blockMappingStart :: rest, true, _ =>
      let (fields, rest) ← blockFields? handles fuel rest
      return (.mapping properties fields, rest)
    | _, _, _ => if properties = .none then none else return (.scalar properties "" true, rest)

/-- Reads a value that is left out before some tokens. -/
def optional? (handles : List (String × String)) :
    Nat → List Token → Bool → Bool → List Token → Option (Tree String × List Token)
  | 0, _, _, _, _ => none
  | fuel + 1, stops, block, indentless, ts =>
    if isNext ts stops then some (empty, ts) else node? handles fuel block indentless ts

/-- Reads the entries of an indented block sequence. -/
def blockItems? (handles : List (String × String)) :
    Nat → List Token → Option (List (Tree String) × List Token)
  | fuel + 1, .blockEntry :: rest => do
    let (item, rest) ← optional? handles fuel [.blockEntry, .blockEnd] true false rest
    let (items, rest) ← blockItems? handles fuel rest
    return (item :: items, rest)
  | _ + 1, .blockEnd :: rest => some ([], rest)
  | _, _ => none

/-- Reads the entries of a block sequence that is not indented. -/
def plainItems? (handles : List (String × String)) :
    Nat → List Token → Option (List (Tree String) × List Token)
  | 0, _ => none
  | fuel + 1, .blockEntry :: rest => do
    let (item, rest) ← optional? handles fuel (.blockEntry :: blockStops) true false rest
    let (items, rest) ← plainItems? handles fuel rest
    return (item :: items, rest)
  | _ + 1, rest => some ([], rest)

/-- Reads the fields of a block mapping. -/
def blockFields? (handles : List (String × String)) :
    Nat → List Token → Option (List (Tree String × Tree String) × List Token)
  | fuel + 1, .key :: rest => do
    let (key, rest) ← optional? handles fuel blockStops true true rest
    let (value, rest) ← fieldValue? handles fuel blockStops true rest
    let (fields, rest) ← blockFields? handles fuel rest
    return ((key, value) :: fields, rest)
  | _ + 1, .blockEnd :: rest => some ([], rest)
  | _, _ => none

/-- Reads the value of a field, which may be left out together with its indicator. -/
def fieldValue? (handles : List (String × String)) :
    Nat → List Token → Bool → List Token → Option (Tree String × List Token)
  | 0, _, _, _ => none
  | fuel + 1, stops, block, .value :: rest => optional? handles fuel stops block block rest
  | _ + 1, _, _, rest => some (empty, rest)

/-- Reads the entries of a flow sequence. -/
def flowItems? (handles : List (String × String)) :
    Nat → Bool → List Token → Option (List (Tree String) × List Token)
  | 0, _, _ => none
  | _ + 1, _, .flowSequenceEnd :: rest => some ([], rest)
  | fuel + 1, first, ts => do
    match ← afterComma? first ts with
    | .flowSequenceEnd :: rest => return ([], rest)
    | .key :: rest =>
      let (field, rest) ← flowPair? handles fuel rest
      let (items, rest) ← flowItems? handles fuel false rest
      return (.mapping .none [field] :: items, rest)
    | ts =>
      let (item, rest) ← node? handles fuel false false ts
      let (items, rest) ← flowItems? handles fuel false rest
      return (item :: items, rest)

/-- Reads the one field of a mapping that is an entry of a flow sequence. Where the key is left out,
the token that shows this is passed over. -/
def flowPair? (handles : List (String × String)) :
    Nat → List Token → Option ((Tree String × Tree String) × List Token)
  | 0, _ => none
  | fuel + 1, ts => do
    let (key, rest) ←
      if isNext ts [.value, .flowEntry, .flowSequenceEnd] then some (empty, ts.drop 1)
      else node? handles fuel false false ts
    let (value, rest) ← fieldValue? handles fuel [.flowEntry, .flowSequenceEnd] false rest
    return ((key, value), rest)

/-- Reads the fields of a flow mapping. -/
def flowFields? (handles : List (String × String)) :
    Nat → Bool → List Token → Option (List (Tree String × Tree String) × List Token)
  | 0, _, _ => none
  | _ + 1, _, .flowMappingEnd :: rest => some ([], rest)
  | fuel + 1, first, ts => do
    match ← afterComma? first ts with
    | .flowMappingEnd :: rest => return ([], rest)
    | .key :: rest =>
      let (key, rest) ←
        optional? handles fuel [.value, .flowEntry, .flowMappingEnd] false false rest
      let (value, rest) ← fieldValue? handles fuel [.flowEntry, .flowMappingEnd] false rest
      let (fields, rest) ← flowFields? handles fuel false rest
      return ((key, value) :: fields, rest)
    | ts =>
      let (key, rest) ← node? handles fuel false false ts
      let (fields, rest) ← flowFields? handles fuel false rest
      return ((key, empty) :: fields, rest)

end

/-- Reads a value from all tokens of a document. -/
def root? (handles : List (String × String)) (ts : List Token) :
    Option (Tree String × List Token) :=
  node? handles (3 * ts.length + 3) true false ts

/-! ## Documents -/

/-- The versions that are understood. -/
def isKnownVersion (major minor : Nat) : Bool := major = 1 && (minor = 1 || minor = 2)

/-- Reads the directives in front of a document: the handles that they introduce and the tokens
after them. Neither the version nor a handle may be given twice. -/
def directives? (hasVersion : Bool) (handles : List (String × String)) :
    List Token → Option (List (String × String) × List Token)
  | .directive (.version major minor) :: rest =>
    if hasVersion || !isKnownVersion major minor then none else directives? true handles rest
  | .directive (.tag handle beginning) :: rest =>
    if (handles.lookup handle).isSome then none
    else directives? hasVersion ((handle, beginning) :: handles) rest
  | rest => some (handles ++ defaultHandles, rest)

/-- Whether a document starts explicitly with this token. -/
def isDocumentStart : Token → Bool
  | .directive _ => true
  | .documentStart => true
  | _ => false

/-- Reads a document and nothing else. A text without a document has no value. -/
def ofTokens? (ts : List Token) : Option (Option (Tree String)) := do
  match ts with
  | [] => return none
  | t :: _ =>
    let (root, rest) ←
      if isDocumentStart t then
        match ← directives? false [] ts with
        | (handles, .documentStart :: rest) =>
          if rest.head?.all fun t ↦ isDocumentStart t || t = .documentEnd then some (empty, rest)
          else root? handles rest
        | _ => none
      else root? defaultHandles ts
    if (rest.dropWhile (· = .documentEnd)).isEmpty then return some root else none

/-- The tree of a text. -/
def ofText? (text : String) : Option (Option (Tree String)) := do
  ofTokens? (← (← Source.ofText? text).tokens?)

end Tree

end Yaml

end CitationFilter
