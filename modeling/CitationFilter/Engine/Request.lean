import CitationFilter.Engine.Basic
import CitationFilter.Json.Text

/-!
# Requests and their results

A request is an object with the name of the method and its parameters. Two methods answer with more
than the fact that they are done: a cluster comes back as a pair of a status and a list of updates,
and the bibliography as a pair of which the second component lists the entries. Both are read
strictly; whatever does not fit breaks the rules of the conversation.
-/

namespace CitationFilter

/-- What an engine may be asked to do. -/
inductive Request where
  /-- Start with a style and a default language. -/
  | init (style lang : String)
  | setOutputFormat (format : String)
  | updateItems (ids : List String)
  | updateUncitedItems (ids : List String)
  | processCluster (cluster : Cluster) (before after : List Position)
  | makeBibliography
deriving DecidableEq, Repr

namespace Request

/-- The name of the method. -/
def method : Request → String
  | .init .. => "init"
  | .setOutputFormat _ => "setOutputFormat"
  | .updateItems _ => "updateItems"
  | .updateUncitedItems _ => "updateUncitedItems"
  | .processCluster .. => "processCitationCluster"
  | .makeBibliography => "makeBibliography"

/-- The value of a list of texts. -/
def texts (ss : List String) : Json := .arr (ss.map .str)

/-- The value of a list of positions. -/
def positions (ps : List Position) : Json := .arr (ps.map (·.toJson))

/-- The parameters. -/
def params : Request → Json
  | .init style lang => .obj [("style", .str style), ("lang", .str lang)]
  | .setOutputFormat format => .str format
  | .updateItems ids => texts ids
  | .updateUncitedItems ids => texts ids
  | .processCluster cluster before after =>
    .arr [cluster.toJson, positions before, positions after]
  | .makeBibliography => .null

/-- The message that makes the request. -/
def toJson (request : Request) : Json :=
  .obj [("method", .str request.method), ("params", request.params)]

end Request

/-! ## Reading results -/

namespace Outcome

/-- Reads the status of a cluster: whether the bibliography changed. -/
def statusOfJson : Json → Except Json.ShapeError Bool :=
  Json.asRecord .clusterStatus ["bibchange"] fun fields _ ↦
    Json.optional fields "bibchange" false Json.asBool

/-- Reads an update: the index and the text, and perhaps more that does not matter. -/
def updateOfItems : List Json → Except ProtocolFault Update
  | .num index :: .str text :: _ =>
    match index.count? with
    | some i => .ok ⟨i, text⟩
    | none => .error (.badIndex index)
  | values => .error (.badUpdate values)

/-- Reads the result for a cluster. -/
def ofJson (result : Json) : Except ProtocolFault Outcome := do
  let (changed, updates) ←
    (Json.asPair statusOfJson (Json.asList Json.asItems) .pair result).mapError .clusterResult
  return ⟨changed, ← updates.mapM updateOfItems⟩

end Outcome

/-- Reads the entries of a bibliography; false stands for a style that has none. -/
def Request.entriesOfJson : Json → Except ProtocolFault (List String)
  | .bool false => .ok []
  | result =>
    ((Json.asPair Except.ok (Json.asList Json.asText) .pair result).map (·.2)).mapError
      .bibliography

end CitationFilter
