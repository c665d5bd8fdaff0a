import CitationFilter.Document.Metadata
import CitationFilter.Json.Text

/-!
# Documents

A document is read from a JSON object with the fields `meta` and `blocks`. The object itself is kept
as the frame: when the document is written, the two fields get their new values in the places where
they stood, and all other fields are as they were.
-/

namespace CitationFilter

/-- A whole document. -/
structure Document where
  /-- The metadata. -/
  metadata : Metadata
  /-- The blocks of the text. -/
  blocks : List Node
  /-- The object that was read, whose `meta` and `blocks` only mark a place. -/
  frame : List (String × Json)
deriving Repr

namespace Document

/-- The metadata in an object; without the field there are none. -/
def metadataOf (frame : List (String × Json)) : Except Error Metadata :=
  match frame.lookup "meta" with
  | none => .ok ⟨[]⟩
  | some value =>
    match value.asFields with
    | .ok fields => .ok ⟨fields⟩
    | .error fault => .error (.document (.metadata fault))

/-- The blocks in an object. -/
def blocksOf (frame : List (String × Json)) : Except Error (List Node) :=
  match frame.lookup "blocks" with
  | none => .error (.document .blocksMissing)
  | some (.arr items) => (Node.listOfJson items).mapError .malformedCitation
  | some _ => .error (.document .blocksNotArray)

/-- Reads a document from a value. The metadata are checked before the blocks. -/
def ofJson : Json → Except Error Document
  | .obj frame => do
    let metadata ← metadataOf frame
    let blocks ← blocksOf frame
    return ⟨metadata, blocks, frame⟩
  | _ => .error (.document .unreadable)

/-- Reads a document from its text. -/
def ofText (text : String) : Except Error Document :=
  match Json.read? text with
  | some value => ofJson value
  | none => .error (.document .unreadable)

/-- The value of a document. -/
def toJson (document : Document) : Json :=
  let frame := Json.put "meta" (.obj document.metadata.fields) document.frame
  .obj (Json.put "blocks" (.arr (Node.listToJson document.blocks)) frame)

/-- The text of a document. -/
def toText (document : Document) : String := document.toJson.text

end Document

end CitationFilter
