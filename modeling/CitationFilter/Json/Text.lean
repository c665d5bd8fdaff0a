import CitationFilter.Json.Token

/-!
# The text of a JSON value

Writing a value lists its tokens and spells them without any space between.

Reading goes through the tokens with a stack of the containers that are still open. Each token
either opens a container, adds a value to the innermost one, or closes it, so reading is a fold
again, and the tokens of a value take a stack that waits for a value to the same stack with that
value added, whatever comes after them.

A text may nest containers 127 deep.
-/

namespace CitationFilter

namespace Json

/-! ## Writing -/

mutual

/-- The tokens of a value. -/
def tokens : Json → List Token
  | .null => [.null]
  | .bool b => [.bool b]
  | .num n => [.num n]
  | .str s => [.str s]
  | .arr items => .openArray :: itemTokens items ++ [.closeArray]
  | .obj fields => .openObject :: fieldTokens fields ++ [.closeObject]

/-- The tokens of the elements of an array, with commas between. -/
def itemTokens : List Json → List Token
  | [] => []
  | [item] => item.tokens
  | item :: rest => item.tokens ++ .comma :: itemTokens rest

/-- The tokens of the fields of an object, with commas between. -/
def fieldTokens : List (String × Json) → List Token
  | [] => []
  | [(key, value)] => .str key :: .colon :: value.tokens
  | (key, value) :: rest => .str key :: .colon :: value.tokens ++ .comma :: fieldTokens rest

end

/-- The text of a value. -/
def text (v : Json) : String := String.ofList (v.tokens.flatMap Token.chars)

/-! ## Reading -/

/-- A container that is still open, with what it holds so far in reverse order. -/
inductive Frame where
  | array (items : List Json)
  | object (fields : List (String × Json))
  /-- An object in which a key has been read and its value has not. -/
  | entry (fields : List (String × Json)) (key : String)
deriving Repr

/-- What may come next. -/
inductive Expected where
  | value
  | itemOrEnd
  | keyOrEnd
  | key
  | colon
  | commaOrEnd
  | nothing (result : Json)
deriving Repr

/-- A reader in the middle of the tokens: the open containers, the innermost first, and what may
come next. -/
structure Reader where
  /-- The open containers, the innermost first. -/
  frames : List Frame
  /-- What may come next. -/
  expected : Expected
deriving Repr

namespace Reader

/-- The reader before the first token. -/
def start : Reader := ⟨[], .value⟩

/-- How deep containers may nest. -/
def deepest : Nat := 127

/-- Adds a value to the innermost container, or ends with it if there is none. -/
def add (v : Json) : List Frame → Option Reader
  | [] => some ⟨[], .nothing v⟩
  | .array items :: outer => some ⟨.array (v :: items) :: outer, .commaOrEnd⟩
  | .entry fields key :: outer => some ⟨.object ((key, v) :: fields) :: outer, .commaOrEnd⟩
  | .object _ :: _ => none

/-- Opens a container. -/
def enter (frame : Frame) (expected : Expected) (frames : List Frame) : Option Reader :=
  if frames.length < deepest then some ⟨frame :: frames, expected⟩ else none

/-- Closes the innermost container if it is an array. -/
def closeArray : List Frame → Option Reader
  | .array items :: outer => add (.arr items.reverse) outer
  | _ => none

/-- Closes the innermost container if it is an object without a pending key. -/
def closeObject : List Frame → Option Reader
  | .object fields :: outer => add (.obj fields.reverse) outer
  | _ => none

/-- Reads the first token of a value. -/
def beginValue (frames : List Frame) : Token → Option Reader
  | .openArray => enter (.array []) .itemOrEnd frames
  | .openObject => enter (.object []) .keyOrEnd frames
  | .null => add .null frames
  | .bool b => add (.bool b) frames
  | .num n => add (.num n) frames
  | .str s => add (.str s) frames
  | _ => none

/-- Reads the key of a field. -/
def beginField : List Frame → Token → Option Reader
  | .object fields :: outer, .str key => some ⟨.entry fields key :: outer, .colon⟩
  | _, _ => none

/-- Reads what follows an element or a field. -/
def goOn : List Frame → Token → Option Reader
  | .array items :: outer, .comma => some ⟨.array items :: outer, .value⟩
  | .object fields :: outer, .comma => some ⟨.object fields :: outer, .key⟩
  | frames, .closeArray => closeArray frames
  | frames, .closeObject => closeObject frames
  | _, _ => none

/-- Reads one token. -/
def step (r : Reader) (t : Token) : Option Reader :=
  match r.expected, t with
  | .value, t => beginValue r.frames t
  | .itemOrEnd, .closeArray => closeArray r.frames
  | .itemOrEnd, t => beginValue r.frames t
  | .keyOrEnd, .closeObject => closeObject r.frames
  | .keyOrEnd, t => beginField r.frames t
  | .key, t => beginField r.frames t
  | .colon, .colon => some ⟨r.frames, .value⟩
  | .commaOrEnd, t => goOn r.frames t
  | _, _ => none

/-- The value, if the tokens may end here. -/
def finish (r : Reader) : Option Json :=
  match r.expected with
  | .nothing v => some v
  | _ => none

end Reader

/-- The value that a sequence of tokens stands for. -/
def ofTokens? (ts : List Token) : Option Json :=
  (ts.foldlM Reader.step Reader.start).bind Reader.finish

/-- Reads a text with every repetition of a key kept. -/
def readAll? (text : String) : Option Json := (tokens? text.toList).bind ofTokens?

/-- Reads a text; repeated keys are resolved. -/
def read? (text : String) : Option Json := (readAll? text).map merged

end Json

end CitationFilter
