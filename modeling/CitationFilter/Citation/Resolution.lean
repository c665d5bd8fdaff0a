import CitationFilter.Citation.Bibliography
import CitationFilter.Citation.Clusters
import CitationFilter.Citation.Placement
import CitationFilter.Document.Basic

/-!
# Resolving a document

The document is gone through twice in the same order, once to list the occurrences and once to put
their texts back. In between the occurrences go through the engine one after the other. The engine
is set up and knows all items before the first cluster, and any failure ends the whole run.
-/

namespace CitationFilter

namespace Resolution

/-- The metadata field that lists items for the bibliography that are not cited in the text. -/
def uncitedField : String := "nocite"

/-- The id that stands for all items of the library. -/
def allItems : String := "*"

/-- The items to list without being cited, each once. All of them have to be in the store. -/
def uncitedIds (document : Document) (store : Store) : Except Error (List String) := do
  let listed ← document.metadata.citationIds uncitedField
  if listed.contains allItems then return store.ids
  let _ ← listed.mapM store.retrieve
  return distinct listed

variable {σ : Type}

/-- Tells the engine about the items. -/
def register (engine : Engine σ) (store : Store) (uncited : List String) : Step σ Unit := do
  engine.setOutputFormat "html"
  engine.updateItems store.ids
  unless uncited.isEmpty do
    engine.updateUncitedItems uncited

/-- Puts the formatted texts into the blocks, which has to use all of them. -/
def fill (format : String) (texts : List String) (blocks : List Node) : Except Error (List Node) :=
  do
    let (result, left) := Placement.run format ⟨texts⟩ blocks
    let blocks ← result
    left.finish
    return blocks

/-- Resolves every citation of a document and inserts the bibliography. -/
def resolve (engine : Engine σ) (store : Store) (format : String) (document : Document) :
    Step σ Document := do
  let uncited ← uncitedIds document store
  register engine store uncited
  let clusters ← Cluster.build store (Occurrence.extract document.blocks)
  let texts ← Cluster.formatAll engine clusters
  let blocks ← fill format texts document.blocks
  let (blocks, _) ← Bibliography.insert engine format blocks
  return { document with blocks }

end Resolution

end CitationFilter
