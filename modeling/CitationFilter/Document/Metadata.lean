import CitationFilter.Document.Node

/-!
# Metadata

The metadata of a document are left as they are; single fields are read when they are needed. A
field is read as text, for file names, or as the list of the items cited in it.
-/

namespace CitationFilter

/-- The metadata of a document. -/
structure Metadata where
  /-- The fields in order. -/
  fields : List (String × Json)
deriving Repr

namespace Metadata

mutual

/-- The text of a metadata value: of a list the text of its first element. -/
def valueText : Node → String
  | .object fields =>
    if Node.tagOf? fields = some "MetaList" then firstText fields else (Node.object fields).text
  | .cite c => (Node.cite c).text
  | .header level attributes inlines => (Node.header level attributes inlines).text
  | .array items => (Node.array items).text
  | .leaf value => (Node.leaf value).text

/-- The text of a metadata list with these fields. -/
def firstText : List (String × Node) → String
  | [] => ""
  | (key, node) :: rest =>
    if key = "c" then
      match node with
      | .array [] => ""
      | .array (first :: _) => valueText first
      | other => other.text
    else firstText rest

end

/-- Reads a field as text. A field that is missing or has no text is an error. -/
def text (metadata : Metadata) (field : String) : Except Error String :=
  match metadata.fields.lookup field with
  | none => .error (.missingMetadata field)
  | some value =>
    match Node.ofJson value with
    | .error fault => .error (.malformedCitation fault)
    | .ok node =>
      let text := valueText node
      if text = "" then .error (.missingMetadata field) else .ok text

/-- The ids of all items cited in a field, in order. A missing field cites none. -/
def citationIds (metadata : Metadata) (field : String) : Except Error (List String) :=
  match metadata.fields.lookup field with
  | none => .ok []
  | some value =>
    match Node.ofJson value with
    | .error fault => .error (.malformedCitation fault)
    | .ok node => .ok (node.cites.flatMap fun c ↦ c.citations.map Citation.id)

end Metadata

end CitationFilter
