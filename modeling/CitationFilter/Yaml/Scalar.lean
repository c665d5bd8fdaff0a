import CitationFilter.Yaml.Gap

/-!
# Scalars

The five ways to write a text: plain, between single or double quotes, and the literal and folded
blocks. Each reader takes the source where the scalar starts and gives its text and the rest of the
source. They go through the source character by character, with what has been gathered in reverse.
-/

namespace CitationFilter

namespace Yaml

namespace Scalar

/-! ## Plain scalars -/

/-- A plain scalar that has been read. -/
structure Plain where
  /-- Its characters. -/
  text : List Char
  /-- Whether a line ended after its last word. -/
  lineEnded : Bool
  /-- What follows. -/
  rest : Source
deriving Repr

/-- Whether a plain scalar ends before this character, given what comes after it. -/
def endsPlain (flow : Bool) (c : Char) (rest : Source) : Bool :=
  (c = ':' && rest.atWordEnd) || (flow && isFlowIndicator c)

/-- Whether a colon must not stand before what follows. -/
def isBadColon (flow : Bool) (c : Char) (rest : Source) : Bool :=
  flow && c = ':' && rest.next?.any fun d ↦ isFlowIndicator d || d = '?'

/-- Whether a plain scalar that goes on after a gap ends before this place: the line is not
indented enough, or a document marker or a comment starts. -/
def endsAfterGap (flow : Bool) (least : Int) (source : Source) : Bool :=
  match source with
  | [] => true
  | p :: _ => (!flow && p.column < least) || source.atDocumentMarker || p.char = '#'

/-- Reads a plain scalar. Outside of flow collections its further lines are indented by at least
`least`. -/
def plain? (flow : Bool) (least : Int) (text : List Char) (gap : Gap) : Source → Option Plain
  | [] => some ⟨text.reverse, gap.isBroken, []⟩
  | p :: rest =>
    if isGap p.char || isBreak p.char then
      if gap.isBroken && p.column < least && p.char = '\t' then none
      else plain? flow least text (gap.add p.char) rest
    else if !gap.isNone && endsAfterGap flow least (p :: rest) then
      some ⟨text.reverse, gap.isBroken, p :: rest⟩
    else if isBadColon flow p.char rest then none
    else if endsPlain flow p.char rest then some ⟨text.reverse, gap.isBroken, p :: rest⟩
    else plain? flow least (p.char :: (gap.reversed ++ text)) .none rest

/-! ## Quoted scalars -/

/-- Reads a scalar between single quotes, after the first of them. A quote inside is written
twice; `quote` says that a quote has just been read. -/
def single? (text : List Char) (gap : Gap) (quote : Bool) : Source → Option (List Char × Source)
  | [] => if quote then some (text.reverse, []) else none
  | p :: rest =>
    if quote then
      if p.char = '\'' then single? ('\'' :: text) .none false rest
      else some (text.reverse, p :: rest)
    else if isGap p.char || isBreak p.char then single? text (gap.add p.char) false rest
    else if Source.atDocumentMarker (p :: rest) then none
    else
      let text := gap.reversed ++ text
      if p.char = '\'' then single? text .none true rest
      else single? (p.char :: text) .none false rest

/-- The characters with an escape of one letter. -/
def escapes : List (Char × Char) :=
  [('0', '\x00'), ('a', '\x07'), ('b', '\x08'), ('t', '\t'), ('\t', '\t'), ('n', '\n'),
    ('v', '\x0B'), ('f', '\x0C'), ('r', '\r'), ('e', '\x1B'), (' ', ' '), ('"', '"'), ('/', '/'),
    ('\\', '\\'), ('N', '\u0085'), ('_', '\u00A0'), ('L', '\u2028'), ('P', '\u2029')]

/-- The escapes with a code point, with their numbers of digits. -/
def numericEscapes : List (Char × Nat) := [('x', 2), ('u', 4), ('U', 8)]

/-- The value of a hexadecimal digit. -/
def hexValue? (c : Char) : Option Nat :=
  if c.isDigit then some (c.toNat - '0'.toNat)
  else if 'a' ≤ c ∧ c ≤ 'f' then some (c.toNat - 'a'.toNat + 10)
  else if 'A' ≤ c ∧ c ≤ 'F' then some (c.toNat - 'A'.toNat + 10)
  else none

/-- The character with a code point. -/
def charOfCode? (code : Nat) : Option Char :=
  if h : code.isValidChar then some (Char.ofNatAux code h) else none

/-- What the reader of a double-quoted scalar is in the middle of. -/
inductive Escape where
  | none
  /-- After a backslash. -/
  | started
  /-- Inside an escape that needs so many more digits. -/
  | digits (missing value : Nat)
deriving DecidableEq, Repr

/-- Reads a scalar between double quotes, after the first of them. -/
def double? (text : List Char) (gap : Gap) (escape : Escape) :
    Source → Option (List Char × Source)
  | [] => none
  | p :: rest =>
    match escape with
    | .started =>
      if isBreak p.char then double? text (.continued []) .none rest
      else
        match escapes.lookup p.char, numericEscapes.lookup p.char with
        | some c, _ => double? (c :: text) .none .none rest
        | none, some n => double? text .none (.digits n 0) rest
        | none, none => none
    | .digits missing value =>
      match hexValue? p.char with
      | none => none
      | some d =>
        let value := 16 * value + d
        if missing ≤ 1 then
          match charOfCode? value with
          | some c => double? (c :: text) .none .none rest
          | none => none
        else double? text .none (.digits (missing - 1) value) rest
    | .none =>
      if isGap p.char || isBreak p.char then double? text (gap.add p.char) .none rest
      else if Source.atDocumentMarker (p :: rest) then none
      else
        let text := gap.reversed ++ text
        if p.char = '"' then some (text.reverse, rest)
        else if p.char = '\\' then double? text .none .started rest
        else double? (p.char :: text) .none .none rest

/-! ## Block scalars -/

/-- What becomes of the line breaks at the end of a block. -/
inductive Chomping where
  /-- None stays. -/
  | strip
  /-- One stays. -/
  | clip
  /-- All stay. -/
  | keep
deriving DecidableEq, Repr

/-- The header of a block. -/
structure Header where
  /-- What becomes of the line breaks at the end. -/
  chomping : Chomping
  /-- By how much the block is indented, if the header says so. -/
  increment : Option Nat
deriving DecidableEq, Repr

/-- Reads a chomping indicator. -/
def chomping? : Source → Option (Chomping × Source)
  | p :: rest =>
    if p.char = '+' then some (.keep, rest)
    else if p.char = '-' then some (.strip, rest)
    else none
  | [] => none

/-- Reads an indentation indicator, which must not be zero. -/
def increment? : Source → Option (Option Nat × Source)
  | p :: rest =>
    if p.char.isDigit then
      if p.char = '0' then none else some (some (p.char.toNat - '0'.toNat), rest)
    else some (none, p :: rest)
  | [] => some (none, [])

/-- Reads the header of a block, with its two indicators in any order, and the line break. -/
def header? (source : Source) : Option (Header × Source) := do
  match chomping? source with
  | some (chomping, rest) =>
    let (increment, rest) ← increment? rest
    return (⟨chomping, increment⟩, ← rest.endLine?)
  | none =>
    let (increment, rest) ← increment? source
    match increment.bind fun _ ↦ chomping? rest with
    | some (chomping, rest) => return (⟨chomping, increment⟩, ← rest.endLine?)
    | none => return (⟨.clip, increment⟩, ← rest.endLine?)

/-- The greatest column that the spaces at the start of a block reach, up to its first word. A tab
there is an error. -/
def deepest? (column : Nat) : Source → Option Nat
  | [] => some column
  | p :: rest =>
    if p.char = ' ' then deepest? (max column (p.column + 1)) rest
    else if p.char = '\t' then none
    else if isBreak p.char then deepest? column rest
    else some column

/-- The indentation of a block inside a collection with some indentation. -/
def blockIndent? (header : Header) (outer : Int) (source : Source) : Option Int :=
  match header.increment with
  | some n => some (max outer 0 + n)
  | none => (deepest? 0 source).map fun (column : Nat) ↦ max (column : Int) (max (outer + 1) 1)

/-- A block that is being read. -/
structure Block where
  /-- Whether single line breaks are folded. -/
  folds : Bool
  /-- The characters so far, in reverse. -/
  text : List Char
  /-- The break of the last line, if it has not been used. -/
  ending : Option Char
  /-- The breaks of the empty lines after it, in reverse. -/
  empty : List Char
  /-- Whether the last line started with a blank. -/
  wasIndented : Bool
deriving Repr

namespace Block

/-- The block after the breaks before a line have been settled, given the first character of the
line. A single break between two lines without extra indentation becomes a space, or nothing if
there are empty lines too. -/
def settled (block : Block) (c : Char) : Block :=
  let folding := block.folds && block.ending = some '\n' && !block.wasIndented && !isGap c
  let joint :=
    if folding then (if block.empty = [] then [' '] else []) else block.ending.toList
  { block with
    text := block.empty ++ joint ++ block.text
    ending := none
    empty := []
    wasIndented := isGap c }

/-- The text when the block is over. -/
def finish (block : Block) : Chomping → List Char
  | .strip => block.text.reverse
  | .clip => (block.ending.toList ++ block.text).reverse
  | .keep => (block.empty ++ block.ending.toList ++ block.text).reverse

end Block

/-- Reads the lines of a block; `inside` says that the line has begun. The block is over at the
first line that is not indented enough. -/
def lines? (indent : Int) (block : Block) (inside : Bool) : Source → Option (Block × Source)
  | [] => some (block, [])
  | p :: rest =>
    if inside then
      if isBreak p.char then lines? indent { block with ending := some p.char } false rest
      else lines? indent { block with text := p.char :: block.text } true rest
    else if p.column < indent && p.char = ' ' then lines? indent block false rest
    else if p.column < indent && p.char = '\t' then none
    else if isBreak p.char then
      lines? indent { block with empty := p.char :: block.empty } false rest
    else if p.column = indent then
      let block := block.settled p.char
      lines? indent { block with text := p.char :: block.text } true rest
    else some (block, p :: rest)

/-- Reads a block, after its indicator, inside a collection with some indentation. -/
def block? (folds : Bool) (outer : Int) (source : Source) : Option (List Char × Source) := do
  let (header, rest) ← header? source
  let indent ← blockIndent? header outer rest
  let (block, rest) ← lines? indent ⟨folds, [], none, [], false⟩ false rest
  return (block.finish header.chomping, rest)

end Scalar

end Yaml

end CitationFilter
