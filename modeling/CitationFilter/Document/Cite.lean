import CitationFilter.Error

/-!
# Cite nodes

A cite node holds a list of citations, and a citation names an item and may have a suffix. Only
these two are read. The rest of the node, down to the text it falls back on, is kept unread, so a
node that is written back is written as it came.
-/

namespace CitationFilter

/-- One citation of a cite node. -/
structure Citation where
  /-- The id of the cited item. -/
  id : String
  /-- What follows the citation: the inlines that may hold a locator. -/
  suffix : List Json
deriving Repr

/-- A node that cites items. -/
structure Cite where
  /-- The citations in order. -/
  citations : List Citation
  /-- The whole node as it was read. -/
  raw : Json
deriving Repr

namespace Citation

/-- The names of the two fields, in the order in which an array would list them. -/
def keys : List String := ["citationId", "citationSuffix"]

/-- Reads a citation. The suffix may be left out. -/
def ofJson : Json → Except Json.ShapeError Citation :=
  Json.asRecord .citation keys fun fields absent ↦ do
    Json.checkFields
      [("citationId", Json.check Json.asText), ("citationSuffix", Json.check Json.asItems)] fields
    let id ← Json.required fields "citationId" (absent "citationId") Json.asText
    let suffix ← Json.optional fields "citationSuffix" [] Json.asItems
    return ⟨id, suffix⟩

end Citation

namespace Cite

/-- The list of citations inside a cite node: the first element of its contents. -/
def list? (raw : Json) : Option (List Json) :=
  match (raw.get? "c").bind Json.head? with
  | some (.arr items) => some items
  | _ => none

/-- Reads a cite node. -/
def ofJson (raw : Json) : Except CitationFault Cite :=
  match list? raw with
  | none => .error .noList
  | some items =>
    match items.mapM Citation.ofJson with
    | .ok citations => .ok ⟨citations, raw⟩
    | .error fault => .error (.shape fault)

end Cite

end CitationFilter
