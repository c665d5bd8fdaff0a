import CitationFilter.Engine.Cluster
import CitationFilter.Error

/-!
# Citation engines

An engine knows the citation style. It is a black box with a state: it is told which items there
are, then it formats one cluster after the other, and in the end it makes the bibliography. What it
makes of a cluster depends on all clusters before it.

`Engine σ` is the interface: one step for each request, over states in `σ`. A failed step leaves a
state too, because an engine that has failed may be asked again.
-/

namespace CitationFilter

/-- A formatted text for the cluster with some index among all formatted ones. -/
structure Update where
  /-- The index of the cluster. -/
  index : Nat
  /-- Its formatted text. -/
  text : String
deriving DecidableEq, Repr

/-- What the engine answers for a cluster. -/
structure Outcome where
  /-- Whether the bibliography changed because of the cluster. -/
  bibliographyChanged : Bool
  /-- The texts that were made or changed. -/
  updates : List Update
deriving DecidableEq, Repr

/-- A step that may fail, over states in `σ`. -/
abbrev Step (σ α : Type) : Type := ExceptT Error (StateM σ) α

/-- A citation engine with states in `σ`. -/
structure Engine (σ : Type) where
  /-- Selects the format of the texts. -/
  setOutputFormat : String → Step σ Unit
  /-- Registers the items that may be cited. -/
  updateItems : List String → Step σ Unit
  /-- Registers items that belong to the bibliography without being cited. -/
  updateUncitedItems : List String → Step σ Unit
  /-- Formats a cluster, given the positions of those before it and of those after it. -/
  processCluster : Cluster → List Position → List Position → Step σ Outcome
  /-- Makes the bibliography. -/
  makeBibliography : Step σ (List String)

namespace Outcome

/-- The text for the cluster that was just formatted. If the bibliography did not change, the
second update wins unless it is empty: it is usually the short form. -/
def text (outcome : Outcome) : Except Error String :=
  match outcome.updates with
  | [] => .error (.engineProtocol .noText)
  | [first] => .ok first.text
  | first :: second :: _ =>
    if outcome.bibliographyChanged ∨ second.text = "" then .ok first.text else .ok second.text

end Outcome

end CitationFilter
