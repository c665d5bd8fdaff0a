import CitationFilter.Json.Basic
import CitationFilter.Text.Blank

/-!
# Locators

The suffix of a citation may say where in the cited item to look, usually in brackets. The locator
is made from the texts in the suffix: each loses one opening bracket at its front and one closing
bracket at its back, together with the blanks inside them, and what is left is joined with bars.

The brackets are removed in one pass from left to right, `Locator.swept`. The plain definition takes
two steps, first the opening and then the closing bracket; it is `Locator.unbracketed`.
-/

namespace CitationFilter

namespace Locator

open Text

/-! ## Removing brackets in one pass -/

/-- Whether a text is a closing bracket with nothing but blanks before it. -/
def closes (cs : List Char) : Bool := trimFront cs = [']']

/-- Copies a text up to the place from which on it closes. -/
def upToClosing : List Char → List Char
  | [] => []
  | c :: rest => if closes (c :: rest) then [] else c :: upToClosing rest

/-- A text without its brackets. -/
def swept : List Char → List Char
  | '[' :: rest => upToClosing (trimFront rest)
  | cs => upToClosing cs

/-! ## Removing brackets in two steps -/

/-- Drops an opening bracket at the front with the blanks after it. -/
def withoutOpening : List Char → List Char
  | '[' :: rest => trimFront rest
  | cs => cs

/-- Drops a closing bracket at the back with the blanks before it. -/
def withoutClosing (cs : List Char) : List Char :=
  if cs.getLast? = some ']' then trimBack cs.dropLast else cs

/-- Drops the brackets at both ends with the blanks inside them. -/
def unbracketed (cs : List Char) : List Char := withoutClosing (withoutOpening cs)

/-! ## The locator of a suffix -/

/-- The text of an inline, if it is one that holds text. -/
def pieceText? (inline : Json) : Option String :=
  match (inline.get? "t").bind Json.text?, (inline.get? "c").bind Json.text? with
  | some t, some s => if t = "Str" then some s else none
  | _, _ => none

/-- The texts in a suffix, without their brackets. -/
def pieces (suffix : List Json) : List String :=
  (suffix.filterMap pieceText?).map fun s ↦ String.ofList (swept s.toList)

/-- The locator that a suffix gives; no text is no locator. -/
def ofSuffix? (suffix : List Json) : Option String :=
  let joined := "|".intercalate (pieces suffix)
  if joined = "" then none else some joined

end Locator

end CitationFilter
