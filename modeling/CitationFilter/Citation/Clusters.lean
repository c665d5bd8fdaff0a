import CitationFilter.Citation.Occurrence
import CitationFilter.Engine.Basic
import CitationFilter.Library.Store

/-!
# From occurrences to formatted texts

Each occurrence makes one cluster, numbered by its place. The clusters go to the engine one at a
time and strictly in order, each with the positions of all clusters before it, because its text
depends on them.
-/

namespace CitationFilter

namespace Cluster

/-- The cluster of an occurrence. Its id is the id of the item with the number of the note. -/
def ofOccurrence (occurrence : Occurrence) (noteIndex : Nat) : Cluster where
  id := occurrence.itemId ++ "_" ++ toString noteIndex
  items := [⟨occurrence.itemId, occurrence.locator⟩]
  noteIndex := noteIndex

/-- The clusters of the occurrences from some place on. -/
def buildFrom (store : Store) (start : Nat) : List Occurrence → Except Error (List Cluster)
  | [] => .ok []
  | occurrence :: rest => do
    let _ ← store.retrieve occurrence.itemId
    return ofOccurrence occurrence start :: (← buildFrom store (start + 1) rest)

/-- The clusters of all occurrences. An item that is not in the store stops everything. -/
def build (store : Store) (occurrences : List Occurrence) : Except Error (List Cluster) :=
  buildFrom store 0 occurrences

variable {σ : Type}

/-- The text of one cluster, given the positions of those before it. -/
def format (engine : Engine σ) (before : List Position) (cluster : Cluster) : Step σ String := do
  let outcome ← engine.processCluster cluster before []
  outcome.text

/-- The texts of the clusters, given the positions of those before them. -/
def formatAfter (engine : Engine σ) (before : List Position) : List Cluster → Step σ (List String)
  | [] => return []
  | cluster :: rest => do
    let text ← format engine before cluster
    return text :: (← formatAfter engine (before ++ [cluster.position]) rest)

/-- The texts of all clusters, one for each. -/
def formatAll (engine : Engine σ) (clusters : List Cluster) : Step σ (List String) :=
  formatAfter engine [] clusters

end Cluster

end CitationFilter
