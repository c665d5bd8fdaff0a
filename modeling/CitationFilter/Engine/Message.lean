import CitationFilter.Json.Text
import CitationFilter.Error
import CitationFilter.Text.Blank

/-!
# Messages of the engine

While it works on a request the engine sends messages. A message is a callback that asks for an item
or a locale, or it ends the request with a failure or with a result.

The three shapes are told apart by the keys that are there, and they are tried in this order: the
first that fits counts, whatever else the message says. A shape fits only if each of its keys occurs
exactly once, so repetitions must still be there when a message is read.
-/

namespace CitationFilter

/-- What an engine may ask for. -/
inductive Callback where
  | item
  | locale
deriving DecidableEq, Repr

/-- A message of the engine. -/
inductive Message where
  /-- Asks for something by its name. -/
  | callback (callback : Callback) (name : String)
  /-- Ends the request with a failure. -/
  | failure (text : String)
  /-- Ends the request with a result. -/
  | success (result : Json)
deriving Repr

namespace Message

/-- The value of a key that occurs exactly once. -/
def single? (key : String) (fields : List (String × Json)) : Option Json :=
  match fields.filter (·.1 = key) with
  | [(_, value)] => some value
  | _ => none

/-- The callback with a name. -/
def callbackNamed? (name : String) : Option Callback :=
  if name = "retrieveItem" then some .item
  else if name = "retrieveLocale" then some .locale
  else none

/-- Reads the name of a callback, which may be wrapped as the key of a null. -/
def callbackOfJson? : Json → Option Callback
  | .str name => callbackNamed? name
  | .obj [(name, .null)] => callbackNamed? name
  | _ => none

/-- Reads a callback. -/
def asCallback? (fields : List (String × Json)) : Option Message := do
  let callback ← (single? "callback" fields).bind callbackOfJson?
  let name ← (single? "params" fields).bind Json.text?
  return .callback callback name

/-- Reads a failure. -/
def asFailure? (fields : List (String × Json)) : Option Message := do
  return .failure (← (single? "error" fields).bind Json.text?)

/-- Reads a result. -/
def asSuccess? (fields : List (String × Json)) : Option Message := do
  return .success (← single? "result" fields).merged

/-- Reads a message from a value in which no repetition has been resolved. -/
def ofJson? : Json → Option Message
  | .obj fields => asCallback? fields <|> asFailure? fields <|> asSuccess? fields
  | _ => none

/-- Reads a message from a line. -/
def ofLine (line : String) : Except ProtocolFault Message :=
  match Json.readAll? line with
  | none => .error (.unreadable (Text.trim line) false)
  | some value =>
    match ofJson? value with
    | some message => .ok message
    | none => .error (.unreadable (Text.trim line) true)

end Message

end CitationFilter
