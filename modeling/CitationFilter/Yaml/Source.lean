/-!
# The characters of a YAML text

In YAML it matters where a character stands. A text is therefore read as a list of placed
characters, each with its line and its column, and everything that looks at the text recurses on
this list; the position is that of the head.

Line breaks are made alike before anything else: a carriage return, with a line feed after it or
not, and the next-line character count as line feeds. The two Unicode separators are breaks too, but
they keep their identity, because they are not folded into spaces.
-/

namespace CitationFilter

namespace Yaml

/-- A character and where it stands. -/
structure Place where
  /-- The character. -/
  char : Char
  /-- The line, counted from zero. -/
  line : Nat
  /-- The column, counted from zero. -/
  column : Nat
deriving DecidableEq, Repr

/-- A text, or what is left of it. -/
abbrev Source := List Place

/-! ## Kinds of characters -/

/-- Whether a character ends a line. -/
def isBreak (c : Char) : Bool := c = '\n' || c = '\u2028' || c = '\u2029'

/-- Whether a character is a blank within a line. -/
def isGap (c : Char) : Bool := c = ' ' || c = '\t'

/-- Whether a character may be part of a name. -/
def isNameChar (c : Char) : Bool := c.isAlphanum || c = '_' || c = '-'

/-- The characters that separate and enclose the entries of flow collections. -/
def isFlowIndicator (c : Char) : Bool := c = ',' || c = '[' || c = ']' || c = '{' || c = '}'

/-- The mark that may stand at the start of a text. -/
def byteOrderMark : Char := '\uFEFF'

/-- The code points that a text may hold, as inclusive ranges. -/
def allowedRanges : List (Nat × Nat) :=
  [(0x09, 0x0A), (0x0D, 0x0D), (0x20, 0x7E), (0x85, 0x85), (0xA0, 0xD7FF), (0xE000, 0xFFFD),
    (0x10000, 0x10FFFF)]

/-- Whether a text may hold a character. -/
def isAllowed (c : Char) : Bool := allowedRanges.any fun r ↦ r.1 ≤ c.toNat && c.toNat ≤ r.2

namespace Source

/-! ## From a text -/

/-- Makes the line breaks alike. -/
def withLineFeeds : List Char → List Char
  | '\r' :: '\n' :: rest => '\n' :: withLineFeeds rest
  | c :: rest => (if c = '\r' ∨ c = '\u0085' then '\n' else c) :: withLineFeeds rest
  | [] => []

/-- Places characters from some line and column on. -/
def placed (line column : Nat) : List Char → Source
  | [] => []
  | c :: rest =>
    ⟨c, line, column⟩ ::
      if isBreak c then placed (line + 1) 0 rest else placed line (column + 1) rest

/-- Drops the mark at the start. -/
def withoutMark : List Char → List Char
  | c :: rest => if c = byteOrderMark then rest else c :: rest
  | [] => []

/-- The placed characters of a text, if it may hold them all. -/
def ofText? (text : String) : Option Source :=
  if text.toList.all isAllowed then some (placed 0 0 (withLineFeeds (withoutMark text.toList)))
  else none

/-! ## Looking ahead -/

/-- The next character. -/
def next? (source : Source) : Option Char := source.head?.map Place.char

/-- Whether the next character is this one. -/
def isNext (c : Char) (source : Source) : Bool := source.next? = some c

/-- Whether a word ends here: with a blank, a break or the end of the text. -/
def atWordEnd : Source → Bool
  | [] => true
  | p :: _ => isGap p.char || isBreak p.char

/-- Whether a line ends here. -/
def atLineEnd : Source → Bool
  | [] => true
  | p :: _ => isBreak p.char

/-- Whether a line starts here with three of these characters and nothing attached to them. -/
def atMarker (c : Char) : Source → Bool
  | p :: q :: r :: rest =>
    p.column = 0 && p.char = c && q.char = c && r.char = c && atWordEnd rest
  | _ => false

/-- Whether a document starts or ends here explicitly. -/
def atDocumentMarker (source : Source) : Bool := source.atMarker '-' || source.atMarker '.'

/-! ## Going on -/

/-- Drops the blanks within the line. -/
def skipGap (source : Source) : Source := source.dropWhile fun p ↦ isGap p.char

/-- Drops everything up to the end of the line. -/
def skipLine (source : Source) : Source := source.dropWhile fun p ↦ !isBreak p.char

/-- Drops blanks and a comment, after which the line has to end, and the line break. -/
def endLine? (source : Source) : Option Source :=
  let source := source.skipGap
  let source := if source.isNext '#' then source.skipLine else source
  if source.atLineEnd then some (source.drop 1) else none

/-- Cuts off the characters that satisfy a test. -/
def word (test : Char → Bool) (source : Source) : List Char × Source :=
  ((source.takeWhile fun p ↦ test p.char).map Place.char, source.dropWhile fun p ↦ test p.char)

end Source

end Yaml

end CitationFilter
