import CitationFilter.Yaml.Source

/-!
# Blanks between words

A scalar may go on over several lines. What stands between two of its words, blanks and line breaks,
is gathered as a gap, and the gap is folded when the next word begins: blanks within a line stay,
one line break becomes a space, and of several line breaks the first is dropped.
-/

namespace CitationFilter

namespace Yaml

/-- What stands between two words. The characters are gathered in reverse. -/
inductive Gap where
  /-- Blanks within a line. -/
  | blanks (cs : List Char)
  /-- Line breaks, the first apart from the others. -/
  | breaks (first : Char) (more : List Char)
  /-- Line breaks after one that was escaped and does not count. -/
  | continued (more : List Char)
deriving DecidableEq, Repr

namespace Gap

/-- The gap between two characters of a word. -/
def none : Gap := .blanks []

/-- Whether there is nothing between the words. -/
def isNone : Gap → Bool
  | .blanks [] => true
  | _ => false

/-- Whether the gap goes over a line break. -/
def isBroken : Gap → Bool
  | .blanks _ => false
  | _ => true

/-- Adds a blank or a line break. Blanks next to line breaks do not count. -/
def add (gap : Gap) (c : Char) : Gap :=
  match gap, isBreak c with
  | .blanks cs, false => .blanks (c :: cs)
  | .blanks _, true => .breaks c []
  | .breaks first more, true => .breaks first (c :: more)
  | .continued more, true => .continued (c :: more)
  | gap, false => gap

/-- What becomes of the line breaks in a scalar. -/
def folded (first : Char) (more : List Char) : List Char :=
  if first ≠ '\n' then first :: more else if more = [] then [' '] else more

/-- What becomes of the gap, in reverse. -/
def reversed : Gap → List Char
  | .blanks cs => cs
  | .breaks first more => (folded first more.reverse).reverse
  | .continued more => more

end Gap

end Yaml

end CitationFilter
