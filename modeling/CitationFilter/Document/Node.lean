import CitationFilter.Document.Cite

/-!
# The document tree

A document is a tree of JSON values in which two kinds of elements matter: cite nodes, which get
replaced, and headers, one of which may mark where the bibliography goes. Everything else is kept as
a generic object, array or leaf, and is written back as it was read.

An element is an object with a tag in its field `t` and usually contents in its field `c`. A header
has the level, the attributes and the inlines as contents; an object that is tagged as a header but
not shaped like one is an ordinary object. A cite node that is not shaped like one is an error,
since leaving it alone would lose a citation.

There are two traversals, `Node.cites` and `Node.mapCitesM`. Both go through the tree depth first,
left to right, with the fields of an object in order, and neither enters a cite node.
-/

namespace CitationFilter

/-- A node of the document tree. -/
inductive Node where
  | cite (c : Cite)
  | header (level attributes : Json) (inlines : List Node)
  /-- Any other object. -/
  | object (fields : List (String × Node))
  | array (items : List Node)
  /-- A value that is not looked into. -/
  | leaf (value : Json)
deriving Repr

instance : Inhabited Node := ⟨.leaf .null⟩

namespace Node

/-! ## Reading -/

/-- How an object is read, as its tag decides. -/
inductive Shape where
  | cite
  | header
  | generic
deriving DecidableEq, Repr

/-- The way in which the object with these fields is read. -/
def shape (fields : List (String × Json)) : Shape :=
  match (fields.lookup "t").bind Json.text? with
  | some t => if t = "Cite" then .cite else if t = "Header" then .header else .generic
  | none => .generic

mutual

/-- Reads a node. The fault is that of the first cite node that is not shaped like one. -/
def ofJson : Json → Except CitationFault Node
  | .obj fields =>
    match shape fields with
    | .cite => (Cite.ofJson (.obj fields)).map .cite
    | .header => do
      match ← headerOfFields fields with
      | some node => return node
      | none => return .object (← fieldsOfJson fields)
    | .generic => (fieldsOfJson fields).map .object
  | .arr items => (listOfJson items).map .array
  | .null => .ok (.leaf .null)
  | .bool b => .ok (.leaf (.bool b))
  | .num n => .ok (.leaf (.num n))
  | .str s => .ok (.leaf (.str s))

/-- Reads a list of nodes. -/
def listOfJson : List Json → Except CitationFault (List Node)
  | [] => .ok []
  | item :: rest => do
    let node ← ofJson item
    return node :: (← listOfJson rest)

/-- Reads the values of fields as nodes. -/
def fieldsOfJson : List (String × Json) → Except CitationFault (List (String × Node))
  | [] => .ok []
  | (key, value) :: rest => do
    let node ← ofJson value
    return (key, node) :: (← fieldsOfJson rest)

/-- Reads the header whose contents are among the fields, if they are shaped like those of one. -/
def headerOfFields : List (String × Json) → Except CitationFault (Option Node)
  | [] => .ok none
  | (key, value) :: rest =>
    if key = "c" then
      match value with
      | .arr [level, attributes, .arr inlines] => do
        return some (.header level attributes (← listOfJson inlines))
      | _ => .ok none
    else headerOfFields rest

end

/-! ## Writing -/

mutual

/-- The value of a node. -/
def toJson : Node → Json
  | .cite c => c.raw
  | .header level attributes inlines =>
    .obj [("t", .str "Header"), ("c", .arr [level, attributes, .arr (listToJson inlines)])]
  | .object fields => .obj (fieldsToJson fields)
  | .array items => .arr (listToJson items)
  | .leaf value => value

/-- The values of a list of nodes. -/
def listToJson : List Node → List Json
  | [] => []
  | node :: rest => node.toJson :: listToJson rest

/-- The values of fields. -/
def fieldsToJson : List (String × Node) → List (String × Json)
  | [] => []
  | (key, node) :: rest => (key, node.toJson) :: fieldsToJson rest

end

/-! ## Building -/

/-- The inline that hands a text to the writer of one format. -/
def rawInline (format text : String) : Node :=
  .object [("t", .leaf (.str "RawInline")), ("c", .leaf (.arr [.str format, .str text]))]

/-- A paragraph. -/
def paragraph (inlines : List Node) : Node :=
  .object [("t", .leaf (.str "Para")), ("c", .array inlines)]

/-! ## Looking into a node -/

/-- The tag of the object with these fields, if it has one. -/
def tagOf? (fields : List (String × Node)) : Option String :=
  match fields.lookup "t" with
  | some (.leaf (.str t)) => some t
  | _ => none

/-- The tag of an element. -/
def tag? : Node → Option String
  | .cite _ => some "Cite"
  | .header .. => some "Header"
  | .object fields => tagOf? fields
  | .array _ => none
  | .leaf _ => none

/-- The contents of a generic element. -/
def content? : Node → Option Node
  | .object fields => fields.lookup "c"
  | _ => none

/-! ## Text -/

/-- The tags of the elements that stand for their own text. -/
def isTextTag (t : String) : Bool := t = "Str" || t = "MetaString"

/-- The tags of the elements that stand for a space. -/
def isSpaceTag (t : String) : Bool := t = "Space" || t = "SoftBreak" || t = "LineBreak"

/-- The text that an object stands for by itself, without a look at the nodes inside. -/
def ownText? (fields : List (String × Node)) : Option String :=
  match tagOf? fields with
  | none => none
  | some t =>
    if isTextTag t then
      match fields.lookup "c" with
      | some (.leaf (.str s)) => some s
      | _ => none
    else if isSpaceTag t then some " "
    else none

mutual

/-- The text of a node: its pieces of text in order, with spaces and breaks as single spaces. -/
def text : Node → String
  | .cite _ => ""
  | .header _ _ inlines => listText inlines
  | .object fields =>
    match ownText? fields with
    | some s => s
    | none => contentText fields
  | .array items => listText items
  | .leaf _ => ""

/-- The texts of a list of nodes, one after the other. -/
def listText : List Node → String
  | [] => ""
  | node :: rest => node.text ++ listText rest

/-- The text of the contents that are among the fields. -/
def contentText : List (String × Node) → String
  | [] => ""
  | (key, node) :: rest => if key = "c" then node.text else contentText rest

end

/-- The title of a header. -/
def title? : Node → Option String
  | .header _ _ inlines => some (listText inlines)
  | _ => none

/-! ## Traversals -/

mutual

/-- The cite nodes of a tree, in order. -/
def cites : Node → List Cite
  | .cite c => [c]
  | .header _ _ inlines => listCites inlines
  | .object fields => fieldCites fields
  | .array items => listCites items
  | .leaf _ => []

/-- The cite nodes of a list of trees, in order. -/
def listCites : List Node → List Cite
  | [] => []
  | node :: rest => node.cites ++ listCites rest

/-- The cite nodes of the values of fields, in order. -/
def fieldCites : List (String × Node) → List Cite
  | [] => []
  | (_, node) :: rest => node.cites ++ fieldCites rest

end

variable {m : Type → Type} [Monad m]

mutual

/-- Replaces every cite node, in order. Nothing else is changed. -/
def mapCitesM (replace : Cite → m Node) : Node → m Node
  | .cite c => replace c
  | .header level attributes inlines => do
    return .header level attributes (← listMapCitesM replace inlines)
  | .object fields => do return .object (← fieldMapCitesM replace fields)
  | .array items => do return .array (← listMapCitesM replace items)
  | .leaf value => pure (.leaf value)

/-- Replaces every cite node in a list of trees, in order. -/
def listMapCitesM (replace : Cite → m Node) : List Node → m (List Node)
  | [] => pure []
  | node :: rest => do
    let node ← mapCitesM replace node
    return node :: (← listMapCitesM replace rest)

/-- Replaces every cite node in the values of fields, in order. -/
def fieldMapCitesM (replace : Cite → m Node) : List (String × Node) → m (List (String × Node))
  | [] => pure []
  | (key, node) :: rest => do
    let node ← mapCitesM replace node
    return (key, node) :: (← fieldMapCitesM replace rest)

end

end Node

end CitationFilter
