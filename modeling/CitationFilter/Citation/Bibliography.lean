import CitationFilter.Citation.Markup
import CitationFilter.Document.Node
import CitationFilter.Engine.Basic

/-!
# The bibliography

The bibliography goes right after the first heading, among the blocks at the top, that has one of
the known titles. Without such a heading the engine is not even asked for it.
-/

namespace CitationFilter

namespace Bibliography

/-- The titles of headings under which the bibliography goes. -/
def titles : List String := ["Bibliography", "参考文献"]

/-- Whether a block is a heading for the bibliography. -/
def isHeading (block : Node) : Bool :=
  match block.title? with
  | some title => titles.contains title
  | none => false

/-- The index of the heading for the bibliography. -/
def headingIndex? (blocks : List Node) : Option Nat := blocks.findIdx? isHeading

/-- The paragraph of an entry. -/
def paragraph (format entry : String) : Node :=
  .paragraph [.rawInline format (Markup.normalize entry)]

/-- Puts blocks right after the block with some index. -/
def insertAfter (index : Nat) (inserted blocks : List Node) : List Node :=
  blocks.take (index + 1) ++ inserted ++ blocks.drop (index + 1)

variable {σ : Type}

/-- Asks for the bibliography and inserts it; also gives the number of entries. -/
def insert (engine : Engine σ) (format : String) (blocks : List Node) :
    Step σ (List Node × Nat) :=
  match headingIndex? blocks with
  | none => return (blocks, 0)
  | some index => do
    let entries ← engine.makeBibliography
    return (insertAfter index (entries.map (paragraph format)) blocks, entries.length)

end Bibliography

end CitationFilter
