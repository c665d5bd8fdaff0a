import CitationFilter.Citation.Locator
import CitationFilter.Document.Node

/-!
# Occurrences

An occurrence is one citation in the text. The occurrences of a document are listed in document
order, and the position in this list is what ties an occurrence to the text that the engine makes
for it. A cite node with several citations has as many occurrences.
-/

namespace CitationFilter

/-- One cited item. -/
structure Occurrence where
  /-- The id of the item. -/
  itemId : String
  /-- Where in the item, if the citation says so. -/
  locator : Option String
deriving DecidableEq, Repr

namespace Occurrence

/-- The occurrence that a citation makes. -/
def ofCitation (citation : Citation) : Occurrence :=
  ⟨citation.id, Locator.ofSuffix? citation.suffix⟩

/-- The occurrences in a cite node. -/
def ofCite (cite : Cite) : List Occurrence := cite.citations.map ofCitation

/-- The occurrences in some blocks, in document order. -/
def extract (blocks : List Node) : List Occurrence := (Node.listCites blocks).flatMap ofCite

end Occurrence

end CitationFilter
