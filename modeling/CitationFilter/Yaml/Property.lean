import CitationFilter.Yaml.Scalar

/-!
# Names, tags and directives

The small forms around the values: the names of anchors and aliases, the tags, and the directives in
front of a document. Each reader takes the source after the character that introduces the form.
-/

namespace CitationFilter

namespace Yaml

/-- The two parts of a tag as it is written. -/
structure WrittenTag where
  /-- Which abbreviation is used; the empty handle stands for none. -/
  handle : String
  /-- What follows the handle. -/
  suffix : String
deriving DecidableEq, Repr

/-- A directive. -/
inductive Directive where
  | version (major minor : Nat)
  /-- Introduces a handle for the beginning of tags. -/
  | tag (handle beginning : String)
deriving DecidableEq, Repr

namespace Property

/-! ## Names -/

/-- Whether a name may end here. -/
def atNameEnd (source : Source) : Bool :=
  source.atWordEnd || source.next?.any fun c ↦ "?:,]\x7d%@\x60".toList.contains c

/-- Reads the name of an anchor or an alias. -/
def name? (source : Source) : Option (String × Source) :=
  let (name, rest) := source.word isNameChar
  if name ≠ [] ∧ atNameEnd rest then some (String.ofList name, rest) else none

/-! ## Tags -/

/-- The characters that may be part of a tag besides those of names and the percent sign. -/
def tagMarks : List Char := ";/?:@&=+$.!~*'()".toList

/-- Whether a character may be part of a tag. Between angle brackets some more are possible. -/
def isTagChar (verbatim : Bool) (c : Char) : Bool :=
  isNameChar c || tagMarks.contains c || (verbatim && (c = ',' || c = '[' || c = ']'))

/-- How many bytes a character takes whose first byte is this, and what the byte contributes. -/
def leadingByte? (b : Nat) : Option (Nat × Nat) :=
  if b < 0x80 then some (1, b)
  else if 0xC0 ≤ b ∧ b < 0xE0 then some (2, b - 0xC0)
  else if 0xE0 ≤ b ∧ b < 0xF0 then some (3, b - 0xE0)
  else if 0xF0 ≤ b ∧ b < 0xF8 then some (4, b - 0xF0)
  else none

/-- The character of a code that was written with escapes. -/
def escapedChar (code : Nat) : Char := (Scalar.charOfCode? code).getD '\uFFFD'

/-- Reads the characters of a tag; `text` holds those read so far in reverse. Some may be written as
the bytes of their encoding, each with a percent sign; `missing` bytes are still to come. -/
def tagText? (verbatim : Bool) (text : List Char) (missing code : Nat) :
    Source → Option (List Char × Source)
  | [] => if missing = 0 then some (text.reverse, []) else none
  | p :: q :: r :: rest =>
    if p.char = '%' then
      match Scalar.hexValue? q.char, Scalar.hexValue? r.char with
      | some high, some low =>
        let b := 16 * high + low
        if missing = 0 then
          match leadingByte? b with
          | some (1, c) => tagText? verbatim (escapedChar c :: text) 0 0 rest
          | some (n, c) => tagText? verbatim text (n - 1) c rest
          | none => none
        else if 0x80 ≤ b ∧ b < 0xC0 then
          let code := 64 * code + (b - 0x80)
          if missing = 1 then tagText? verbatim (escapedChar code :: text) 0 0 rest
          else tagText? verbatim text (missing - 1) code rest
        else none
      | _, _ => none
    else if missing ≠ 0 then none
    else if isTagChar verbatim p.char then
      tagText? verbatim (p.char :: text) 0 0 (q :: r :: rest)
    else some (text.reverse, p :: q :: r :: rest)
  | p :: rest =>
    if p.char = '%' ∨ missing ≠ 0 then none
    else if isTagChar verbatim p.char then tagText? verbatim (p.char :: text) 0 0 rest
    else some (text.reverse, p :: rest)

/-- Reads a tag handle after its exclamation mark: a name and another mark. -/
def handle? (source : Source) : Option (List Char × Source) :=
  let (name, rest) := source.word isNameChar
  if rest.isNext '!' then some ('!' :: name ++ ['!'], rest.drop 1) else none

/-- Reads a tag between angle brackets. -/
def verbatimTag? (source : Source) : Option (WrittenTag × Source) := do
  let (text, rest) ← tagText? true [] 0 0 source
  if text ≠ [] ∧ rest.isNext '>' then some (⟨"", String.ofList text⟩, rest.drop 1) else none

/-- Reads a tag with a handle. -/
def shortTag? (source : Source) : Option (WrittenTag × Source) := do
  match handle? source with
  | some (handle, rest) =>
    let (suffix, rest) ← tagText? false [] 0 0 rest
    if suffix = [] then none else some (⟨String.ofList handle, String.ofList suffix⟩, rest)
  | none =>
    let (suffix, rest) ← tagText? false [] 0 0 source
    if suffix = [] then some (⟨"", "!"⟩, rest) else some (⟨"!", String.ofList suffix⟩, rest)

/-- Reads a tag after its exclamation mark. -/
def tag? (flow : Bool) (source : Source) : Option (WrittenTag × Source) := do
  let (tag, rest) ← if source.isNext '<' then verbatimTag? (source.drop 1) else shortTag? source
  if rest.atWordEnd || (flow && rest.isNext ',') then some (tag, rest) else none

/-! ## Directives -/

/-- How many digits a version number may have. -/
def longestNumber : Nat := 9

/-- Reads a version number. -/
def number? (source : Source) : Option (Nat × Source) :=
  let (digits, rest) := source.word Char.isDigit
  if digits ≠ [] ∧ digits.length ≤ longestNumber then
    some (digits.foldl (fun n c ↦ 10 * n + (c.toNat - '0'.toNat)) 0, rest)
  else none

/-- Reads the version after the name of its directive. -/
def version? (source : Source) : Option (Directive × Source) := do
  let (major, rest) ← number? source.skipGap
  if rest.isNext '.' then
    let (minor, rest) ← number? (rest.drop 1)
    return (.version major minor, rest)
  else none

/-- Reads the handle in a directive, which may also be a single mark. -/
def declaredHandle? (source : Source) : Option (String × Source) :=
  if source.isNext '!' then
    match handle? (source.drop 1) with
    | some (handle, rest) => some (String.ofList handle, rest)
    | none =>
      if (Source.next? (source.drop 1)).any isNameChar then none else some ("!", source.drop 1)
  else none

/-- Reads the handle and the beginning after the name of the tag directive. -/
def tagDirective? (source : Source) : Option (Directive × Source) := do
  let (handle, rest) ← declaredHandle? source.skipGap
  if rest.next?.any isGap then
    let (beginning, rest) ← tagText? true [] 0 0 rest.skipGap
    if beginning ≠ [] ∧ rest.atWordEnd then
      some (.tag handle (String.ofList beginning), rest)
    else none
  else none

/-- Reads a directive and the rest of its line. -/
def directive? (source : Source) : Option (Directive × Source) := do
  let (name, rest) := source.word isNameChar
  if !rest.atWordEnd then none
  else
    let (directive, rest) ←
      if name = "YAML".toList then version? rest
      else if name = "TAG".toList then tagDirective? rest
      else none
    return (directive, ← rest.endLine?)

end Property

end Yaml

end CitationFilter
