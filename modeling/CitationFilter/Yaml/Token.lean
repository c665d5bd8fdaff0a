import CitationFilter.Yaml.Property

/-!
# Tokens of a YAML text

Block collections have no brackets. They begin where the indentation grows and end where it shrinks
again, and the tokens for their beginning and end are made here from the columns.

A key is only known to be one when the colon after it is reached. So whenever a value begins that
may be a key, the place among the tokens is remembered, and the colon inserts the tokens of the key
there. Such a simple key is on one line with its colon and not too long.
-/

namespace CitationFilter

namespace Yaml

/-- The tokens. -/
inductive Token where
  | directive (d : Directive)
  | documentStart
  | documentEnd
  | blockSequenceStart
  | blockMappingStart
  | blockEnd
  | flowSequenceStart
  | flowSequenceEnd
  | flowMappingStart
  | flowMappingEnd
  | blockEntry
  | flowEntry
  | key
  | value
  | alias (name : String)
  | anchor (name : String)
  | tag (t : WrittenTag)
  | scalar (text : String) (isPlain : Bool)
deriving DecidableEq, Repr

/-- A place at which a key may have begun. -/
structure SimpleKey where
  /-- Whether nothing but a key can stand there. -/
  isRequired : Bool
  /-- How many tokens came before. -/
  number : Nat
  /-- Where it began. -/
  place : Place
deriving DecidableEq, Repr

/-- The scanner in the middle of a text. -/
structure Scanner where
  /-- What is left of the text. -/
  source : Source
  /-- The tokens so far, the last one first. -/
  tokens : List Token
  /-- How many tokens there are. -/
  count : Nat
  /-- The column of the innermost block collection; outside of all it is -1. -/
  indent : Int
  /-- The columns of the block collections around it. -/
  outer : List Int
  /-- The possible keys, one for each flow collection that is open and one for the block around
  them; the innermost first. -/
  keys : List (Option SimpleKey)
  /-- Whether a key may begin here. -/
  keyAllowed : Bool
deriving Repr

namespace Scanner

/-- The scanner before the first token. -/
def start (source : Source) : Scanner := ⟨source, [], 0, -1, [], [none], true⟩

/-- Whether a flow collection is open. -/
def inFlow (s : Scanner) : Bool := 1 < s.keys.length

/-! ## Adding tokens -/

/-- Adds a token at the end. -/
def emit (s : Scanner) (t : Token) : Scanner :=
  { s with tokens := t :: s.tokens, count := s.count + 1 }

/-- Inserts a token before which there are `number` others. -/
def insert (s : Scanner) (number : Nat) (t : Token) : Scanner :=
  let later := s.count - number
  { s with tokens := s.tokens.take later ++ t :: s.tokens.drop later, count := s.count + 1 }

/-- Adds a token for the next character. -/
def single (s : Scanner) (t : Token) : Scanner := { s.emit t with source := s.source.drop 1 }

/-! ## Indentation -/

/-- Begins a block collection at a column that is further to the right; its token is inserted after
`number` others. -/
def deepen (s : Scanner) (column : Int) (number : Nat) (t : Token) : Scanner :=
  if s.inFlow || column ≤ s.indent then s
  else { s.insert number t with indent := column, outer := s.indent :: s.outer }

/-- Ends the block collections that are further to the right than a column, in the block with some
indentation. -/
def leave (s : Scanner) (column : Int) (indent : Int) : List Int → Scanner
  | [] => { s with indent, outer := [] }
  | next :: outer =>
    if column < indent then leave (s.emit .blockEnd) column next outer
    else { s with indent, outer := next :: outer }

/-- Ends the block collections that are further to the right than a column. -/
def shallow (s : Scanner) (column : Int) : Scanner :=
  if s.inFlow then s else s.leave column s.indent s.outer

/-! ## Simple keys -/

/-- How many characters there may be between the beginning of a simple key and its colon. -/
def longestKey : Nat := 1024

/-- Forgets a key that can no longer be one; if it had to be one, that is an error. -/
def fresh? (at_ : Place) : Option SimpleKey → Option (Option SimpleKey)
  | none => some none
  | some k =>
    if k.place.line < at_.line ∨ k.place.column + longestKey < at_.column then
      if k.isRequired then none else some none
    else some (some k)

/-- Forgets the keys that can no longer be keys. -/
def dropStaleKeys (s : Scanner) : Option Scanner :=
  match s.source with
  | [] => some s
  | p :: _ => (s.keys.mapM (fresh? p)).map fun keys ↦ { s with keys }

/-- Forgets the innermost possible key. -/
def dropKey (s : Scanner) : Option Scanner :=
  match s.keys with
  | some k :: keys => if k.isRequired then none else some { s with keys := none :: keys }
  | _ => some s

/-- Remembers that a key may begin here. -/
def saveKey (s : Scanner) : Option Scanner :=
  match s.keyAllowed, s.source with
  | true, p :: _ => do
    let s ← s.dropKey
    let isRequired := !s.inFlow && s.indent = p.column
    return { s with keys := some ⟨isRequired, s.count, p⟩ :: s.keys.drop 1 }
  | _, _ => some s

/-! ## One token -/

/-- Skips blanks, comments and line breaks; also tells whether a key may begin after them. A tab
does not count as a blank where a key may begin in a block. -/
def skipped (flow keyAllowed comment : Bool) : Source → Bool × Source
  | [] => (keyAllowed, [])
  | p :: rest =>
    if isBreak p.char then skipped flow (keyAllowed || !flow) false rest
    else if comment then skipped flow keyAllowed true rest
    else if p.char = '#' then skipped flow keyAllowed true rest
    else if p.char = ' ' || (p.char = '\t' && (flow || !keyAllowed)) ||
        (p.char = byteOrderMark && p.column = 0) then
      skipped flow keyAllowed false rest
    else (keyAllowed, p :: rest)

/-- Goes to the next token. -/
def advance (s : Scanner) : Scanner :=
  let (keyAllowed, source) := skipped s.inFlow s.keyAllowed false s.source
  { s with keyAllowed, source }

/-- Adds what a reader has read as a token. -/
def reading {α : Type} (s : Scanner) (read : Source → Option (α × Source)) (token : α → Token) :
    Option Scanner := do
  let (a, rest) ← read (s.source.drop 1)
  return { s.emit (token a) with source := rest }

/-- Ends all blocks, as a directive or a document marker does. -/
def endBlocks (s : Scanner) : Option Scanner := do
  return { ← (s.shallow (-1)).dropKey with keyAllowed := false }

/-- Adds the token of a document marker. -/
def documentMarker (s : Scanner) (t : Token) : Option Scanner := do
  let s ← s.endBlocks
  return { s.emit t with source := s.source.drop 3 }

/-- Opens a flow collection. -/
def openFlow (s : Scanner) (t : Token) : Option Scanner := do
  let s ← s.saveKey
  return { s.single t with keys := none :: s.keys, keyAllowed := true }

/-- Closes a flow collection. -/
def closeFlow (s : Scanner) (t : Token) : Option Scanner := do
  let s ← s.dropKey
  let keys := if s.inFlow then s.keys.drop 1 else s.keys
  return { s.single t with keys, keyAllowed := false }

/-- Separates the entries of a flow collection. -/
def flowEntry (s : Scanner) : Option Scanner := do
  return { (← s.dropKey).single .flowEntry with keyAllowed := true }

/-- Begins a block collection at a character if that is possible there. -/
def beginBlock (s : Scanner) (p : Place) (t : Token) : Option Scanner :=
  if s.inFlow then some s
  else if s.keyAllowed then some (s.deepen p.column s.count t)
  else none

/-- Begins an entry of a block sequence. -/
def blockEntry (s : Scanner) (p : Place) : Option Scanner := do
  let s ← (← s.beginBlock p .blockSequenceStart).dropKey
  return { s.single .blockEntry with keyAllowed := true }

/-- Begins a key that has an indicator of its own. -/
def explicitKey (s : Scanner) (p : Place) : Option Scanner := do
  let s ← (← s.beginBlock p .blockMappingStart).dropKey
  return { s.single .key with keyAllowed := !s.inFlow }

/-- Begins a value. If there is a simple key before it, its tokens are inserted now. -/
def mappingValue (s : Scanner) (p : Place) : Option Scanner :=
  match s.keys with
  | some k :: keys =>
    let s := (s.insert k.number .key).deepen k.place.column k.number .blockMappingStart
    some { s.single .value with keys := none :: keys, keyAllowed := false }
  | _ => do
    let s ← s.beginBlock p .blockMappingStart
    return { s.single .value with keyAllowed := !s.inFlow }

/-- Reads something that may be a key. -/
def keyLike {α : Type} (s : Scanner) (read : Source → Option (α × Source)) (token : α → Token) :
    Option Scanner := do
  return { ← (← s.saveKey).reading read token with keyAllowed := false }

/-- Adds a block scalar. -/
def blockScalar (s : Scanner) (folds : Bool) : Option Scanner := do
  let s := { ← s.dropKey with keyAllowed := true }
  s.reading (Scalar.block? folds s.indent) fun text ↦ .scalar (String.ofList text) false

/-- Adds a quoted scalar. -/
def quotedScalar (s : Scanner) (read : Source → Option (List Char × Source)) : Option Scanner :=
  s.keyLike read fun text ↦ .scalar (String.ofList text) false

/-- Adds a plain scalar. -/
def plainScalar (s : Scanner) : Option Scanner := do
  let s ← s.saveKey
  let plain ← Scalar.plain? s.inFlow (s.indent + 1) [] .none s.source
  return { s.emit (.scalar (String.ofList plain.text) true) with
    source := plain.rest
    keyAllowed := plain.lineEnded }

/-- The characters that do not begin a plain scalar by themselves. -/
def indicators : List Char := "-?:,[]\x7b\x7d#&*!|>'\"%@\x60".toList

/-- Whether a plain scalar may begin here. -/
def beginsPlain (s : Scanner) (c : Char) (rest : Source) : Bool :=
  !(isGap c || indicators.contains c) || (c = '-' && !rest.next?.any isGap) ||
    (!s.inFlow && (c = '?' || c = ':') && !rest.atWordEnd)

/-- Reads the token that begins at a character. -/
def token? (s : Scanner) (p : Place) (rest : Source) : Option Scanner :=
  let c := p.char
  if p.column = 0 && c = '%' then
    s.endBlocks.bind fun s ↦ s.reading Property.directive? .directive
  else if s.source.atMarker '-' then s.documentMarker .documentStart
  else if s.source.atMarker '.' then s.documentMarker .documentEnd
  else if c = '[' then s.openFlow .flowSequenceStart
  else if c = '{' then s.openFlow .flowMappingStart
  else if c = ']' then s.closeFlow .flowSequenceEnd
  else if c = '}' then s.closeFlow .flowMappingEnd
  else if c = ',' then s.flowEntry
  else if c = '-' && rest.atWordEnd then s.blockEntry p
  else if c = '?' && (s.inFlow || rest.atWordEnd) then s.explicitKey p
  else if c = ':' && (s.inFlow || rest.atWordEnd) then s.mappingValue p
  else if c = '*' then s.keyLike Property.name? .alias
  else if c = '&' then s.keyLike Property.name? .anchor
  else if c = '!' then s.keyLike (Property.tag? s.inFlow) .tag
  else if c = '|' && !s.inFlow then s.blockScalar false
  else if c = '>' && !s.inFlow then s.blockScalar true
  else if c = '\'' then s.quotedScalar (Scalar.single? [] .none false)
  else if c = '"' then s.quotedScalar (Scalar.double? [] .none .none)
  else if s.beginsPlain c rest then s.plainScalar
  else none

/-- Ends the text: all tokens in order. -/
def finish (s : Scanner) : Option (List Token) :=
  (s.shallow (-1)).dropKey.map fun s ↦ s.tokens.reverse

/-- Reads tokens up to the end of the text; there are at most `fuel` more. -/
def run : Nat → Scanner → Option (List Token)
  | 0, _ => none
  | fuel + 1, s => do
    let s ← s.advance.dropStaleKeys
    match s.source with
    | [] => s.finish
    | p :: rest => run fuel (← (s.shallow p.column).token? p rest)

end Scanner

/-- The tokens of a text. Every token takes at least one character. -/
def Source.tokens? (source : Source) : Option (List Token) :=
  Scanner.run (source.length + 1) (.start source)

end Yaml

end CitationFilter
