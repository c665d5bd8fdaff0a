import CitationFilter.Json.Shape

/-!
# Clusters

A cluster is what the engine formats in one go: the items that are cited together, each with its
locator, and the number of the note in which they are cited. Later clusters refer back to it by its
id and its number, which together are its position.

Clusters are sent as JSON values, and `Cluster.ofJson` reads what `Cluster.toJson` writes. In both
an item without a locator has no such field, which is not the same as an empty locator.
-/

namespace CitationFilter

/-- An item that is cited in a cluster. -/
structure ClusterItem where
  /-- The id of the item. -/
  id : String
  /-- Where in the item, if the citation says so. -/
  locator : Option String
deriving DecidableEq, Repr

/-- Items that are cited together. -/
structure Cluster where
  /-- The id of the cluster. -/
  id : String
  /-- The cited items. -/
  items : List ClusterItem
  /-- The number of the note. -/
  noteIndex : Nat
deriving DecidableEq, Repr

/-- How a cluster is referred to once it has been formatted. -/
structure Position where
  /-- The id of the cluster. -/
  clusterId : String
  /-- The number of its note. -/
  noteIndex : Nat
deriving DecidableEq, Repr

/-- The position of a cluster. -/
def Cluster.position (cluster : Cluster) : Position := ⟨cluster.id, cluster.noteIndex⟩

/-! ## Writing -/

/-- The value of a count. -/
def Json.ofCount (n : Nat) : Json := .num (.int n)

/-- The value of a cited item. -/
def ClusterItem.toJson (item : ClusterItem) : Json :=
  match item.locator with
  | none => .obj [("id", .str item.id)]
  | some locator => .obj [("id", .str item.id), ("locator", .str locator)]

/-- The value of a cluster. -/
def Cluster.toJson (cluster : Cluster) : Json :=
  .obj [("citationID", .str cluster.id), ("citationItems", .arr (cluster.items.map (·.toJson))),
    ("properties", .obj [("noteIndex", .ofCount cluster.noteIndex)])]

/-- The value of a position. -/
def Position.toJson (position : Position) : Json :=
  .arr [.str position.clusterId, .ofCount position.noteIndex]

/-! ## Reading -/

/-- Reads a locator, where null stands for none. -/
def ClusterItem.locatorOfJson : Json → Except Json.ShapeError (Option String)
  | .null => .ok none
  | value => value.asText.map some

/-- Reads a cited item. -/
def ClusterItem.ofJson : Json → Except Json.ShapeError ClusterItem :=
  Json.asRecord .clusterItem ["id", "locator"] fun fields absent ↦ do
    Json.checkFields
      [("id", Json.check Json.asText), ("locator", Json.check locatorOfJson)] fields
    let id ← Json.required fields "id" (absent "id") Json.asText
    let locator ← Json.optional fields "locator" none locatorOfJson
    return ⟨id, locator⟩

/-- Reads the number of a note, which is wrapped in a record of its own. -/
def Cluster.noteIndexOfJson : Json → Except Json.ShapeError Nat :=
  Json.asRecord .clusterProperties ["noteIndex"] fun fields absent ↦
    Json.required fields "noteIndex" (absent "noteIndex") Json.asCount

/-- Reads a cluster. -/
def Cluster.ofJson : Json → Except Json.ShapeError Cluster :=
  Json.asRecord .cluster ["citationID", "citationItems", "properties"] fun fields absent ↦ do
    Json.checkFields
      [("citationID", Json.check Json.asText),
        ("citationItems", Json.check (Json.asList ClusterItem.ofJson)),
        ("properties", Json.check noteIndexOfJson)] fields
    let id ← Json.required fields "citationID" (absent "citationID") Json.asText
    let items ←
      Json.required fields "citationItems" (absent "citationItems") (Json.asList ClusterItem.ofJson)
    let noteIndex ← Json.required fields "properties" (absent "properties") noteIndexOfJson
    return ⟨id, items, noteIndex⟩

/-- Reads a position. -/
def Position.ofJson (value : Json) : Except Json.ShapeError Position :=
  (Json.asPair Json.asText Json.asCount (.record .clusterPosition) value).map
    fun (clusterId, noteIndex) ↦ ⟨clusterId, noteIndex⟩

end CitationFilter
