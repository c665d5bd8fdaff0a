import CitationFilter.Citation.Markup
import CitationFilter.Citation.Queue
import CitationFilter.Document.Node

/-!
# Putting the formatted texts into the document

Every cite node is replaced by a raw inline with the texts of its citations. The nodes are visited
in the order in which the occurrences were listed, so the texts come off the front of the queue in
the order in which they were made.
-/

namespace CitationFilter

namespace FormattedQueue

/-- Takes the next texts as a step that changes the queue. A failing step leaves it alone. -/
def taking (n : Nat) : ExceptT Error (StateM FormattedQueue) (List String) := do
  match (← get).take n with
  | .ok (texts, rest) =>
    set rest
    return texts
  | .error e => throw e

end FormattedQueue

namespace Placement

/-- The text for several citations: the trimmed texts with semicolons between, as running text. -/
def joined (texts : List String) : String :=
  Markup.normalize ("; ".intercalate (texts.map Text.trim))

/-- Replaces one cite node. -/
def replaceCite (format : String) (cite : Cite) : ExceptT Error (StateM FormattedQueue) Node := do
  let texts ← FormattedQueue.taking cite.citations.length
  return Node.rawInline format (joined texts)

/-- Replaces every cite node in the blocks. -/
def blocks (format : String) (blocks : List Node) :
    ExceptT Error (StateM FormattedQueue) (List Node) :=
  Node.listMapCitesM (replaceCite format) blocks

/-- Replaces every cite node in the blocks by the texts of a queue; the second component is what is
left of the queue, also after a failure. -/
def run (format : String) (queue : FormattedQueue) (blocks : List Node) :
    Except Error (List Node) × FormattedQueue :=
  (Placement.blocks format blocks).run.run queue

end Placement

end CitationFilter
