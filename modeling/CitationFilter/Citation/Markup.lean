import CitationFilter.Text.Blank

/-!
# The markup of formatted texts

The engine answers with fragments of markup, of which nine tokens occur: italics, the wrapper of a
bibliography entry and five entities. A fragment is trimmed, then every token is replaced by what
stands for it in running text. Replacements are not looked at again, so an escaped entity comes out
as the entity.

A text is first cut into pieces, each a token or a single character. The pieces put together are
the text, and their replacements put together are the result.
-/

namespace CitationFilter

/-- A token of the markup with what replaces it. -/
structure Markup where
  /-- The characters of the token. -/
  source : List Char
  /-- What it becomes. -/
  replacement : List Char
deriving DecidableEq, Repr

namespace Markup

/-- A token with its replacement, from texts. -/
def ofTexts (source replacement : String) : Markup := ⟨source.toList, replacement.toList⟩

/-- The nine tokens. -/
def table : List Markup :=
  [ofTexts "<i>" "*", ofTexts "</i>" "*", ofTexts "<div class=\"csl-entry\">" "",
    ofTexts "</div>" "", ofTexts "&ndash;" "--", ofTexts "&mdash;" "---", ofTexts "&amp;" "&",
    ofTexts "&lt;" "<", ofTexts "&gt;" ">"]

/-- The token at the front of a text. -/
def at? (cs : List Char) : Option Markup := table.find? fun t ↦ t.source.isPrefixOf cs

/-! ## Pieces -/

/-- A piece of a text. -/
inductive Piece where
  | token (t : Markup)
  | char (c : Char)
deriving DecidableEq, Repr

/-- The characters of a piece. -/
def Piece.source : Piece → List Char
  | .token t => t.source
  | .char c => [c]

/-- What a piece becomes. -/
def Piece.replacement : Piece → List Char
  | .token t => t.replacement
  | .char c => [c]

/-- The pieces of a text of which the first `skip` characters belong to a piece before them. -/
def piecesAfter (skip : Nat) : List Char → List Piece
  | [] => []
  | c :: rest =>
    match skip with
    | k + 1 => piecesAfter k rest
    | 0 =>
      match at? (c :: rest) with
      | some t => .token t :: piecesAfter (t.source.length - 1) rest
      | none => .char c :: piecesAfter 0 rest

/-- The pieces of a text, from left to right. -/
def pieces (cs : List Char) : List Piece := piecesAfter 0 cs

/-- A text with every token replaced. -/
def replaced (cs : List Char) : List Char := (pieces cs).flatMap Piece.replacement

/-- A fragment of the engine as running text. -/
def normalize (fragment : String) : String :=
  String.ofList (replaced (Text.trimmed fragment.toList))

end Markup

end CitationFilter
