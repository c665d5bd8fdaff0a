import CitationFilter.Engine.Message
import CitationFilter.Engine.Request
import CitationFilter.Library.Store
import CitationFilter.Text.Blank
import CitationFilter.Text.Lines

/-!
# Conversations

An engine that runs on its own is talked to over two streams, line by line. A request is sent as one
line; then the lines of the engine are read until one of them ends the request, and every callback
among them is answered with one line before the next is read. Blank lines do not count.

A failed lookup is told to the engine, which may go on. The first one is remembered, and it is what
the request fails with when the engine ends it, even with a result.

The state of a conversation is what the engine has said and nobody has read, and what has been
sent. The engine's input may be able to take only so many bytes; the first line that does not fit
breaks it for good.
-/

namespace CitationFilter

/-- What has been sent to an engine. -/
structure Outbox where
  /-- The lines in order. -/
  sent : List String
  /-- How many more bytes the engine takes; without a number there is no limit. -/
  room : Option Nat
deriving DecidableEq, Repr

namespace Outbox

/-- Sends a line. -/
def sendLine (outbox : Outbox) (line : String) : Except StreamError Unit × Outbox :=
  match outbox.room with
  | none => (.ok (), ⟨outbox.sent ++ [line], none⟩)
  | some room =>
    let size := line.utf8ByteSize + 1
    if size ≤ room then (.ok (), ⟨outbox.sent ++ [line], some (room - size)⟩)
    else (.error .inputBroken, ⟨outbox.sent, some 0⟩)

/-- Sends a message. -/
def send (outbox : Outbox) (message : Json) : Except StreamError Unit × Outbox :=
  outbox.sendLine message.text

end Outbox

/-- The state of a conversation. -/
structure Conversation where
  /-- The lines of the engine that nobody has read. -/
  unread : List Bytes
  /-- What has been sent. -/
  outbox : Outbox
deriving DecidableEq, Repr

namespace Conversation

/-- A conversation before the first request, with all that the engine is going to say. -/
def start (script : Bytes) (room : Option Nat) : Conversation := ⟨script.lines, ⟨[], room⟩⟩

/-! ## Answering callbacks -/

/-- Looks up what a callback asks for. A locale that is not there is null. -/
def lookUp (store : Store) (name : String) : Callback → Except Error Json
  | .item => (store.retrieve name).map Item.toJson
  | .locale => .ok ((store.locale? name).elim .null .str)

/-- The answer that tells what was found. -/
def reply : Except Error Json → Json
  | .ok value => .obj [("result", value)]
  | .error e => .obj [("error", .str e.message)]

/-- Remembers the first failure. -/
def remember (failure : Option Error) : Except Error Json → Option Error
  | .ok _ => failure
  | .error e => some (failure.getD e)

/-! ## Requests -/

/-- Reads lines until one ends the request. `failure` is the first lookup that failed so far. -/
def listen (store : Store) (failure : Option Error) :
    List Bytes → Outbox → Except Error Json × Conversation
  | [], outbox => (.error .engineClosed, ⟨[], outbox⟩)
  | line :: rest, outbox =>
    match line.toText? with
    | none => (.error (.engineIo .invalidText), ⟨rest, outbox⟩)
    | some text =>
      if Text.allBlank text then listen store failure rest outbox
      else
        match Message.ofLine text with
        | .error fault => (.error (.engineProtocol fault), ⟨rest, outbox⟩)
        | .ok (.callback callback name) =>
          let found := lookUp store name callback
          match outbox.send (reply found) with
          | (.ok (), outbox) => listen store (remember failure found) rest outbox
          | (.error cause, outbox) => (.error (.engineIo cause), ⟨rest, outbox⟩)
        | .ok (.failure text) => (.error (failure.getD (.engine text)), ⟨rest, outbox⟩)
        | .ok (.success result) => (failure.elim (.ok result) .error, ⟨rest, outbox⟩)

/-- Makes a request and waits for its result. -/
def call (store : Store) (request : Request) : Step Conversation Json :=
  ExceptT.mk fun conversation ↦
    match conversation.outbox.send request.toJson with
    | (.ok (), outbox) => listen store none conversation.unread outbox
    | (.error cause, outbox) => (.error (.engineIo cause), ⟨conversation.unread, outbox⟩)

/-- Makes a request of which only the success matters. -/
def tell (store : Store) (request : Request) : Step Conversation Unit := do
  let _ ← call store request

/-- Makes a request and reads its result. -/
def ask {α : Type} (store : Store) (request : Request) (read : Json → Except ProtocolFault α) :
    Step Conversation α := do
  let result ← call store request
  liftM ((read result).mapError Error.engineProtocol)

/-- The engine at the other end of a conversation. -/
def engine (store : Store) : Engine Conversation where
  setOutputFormat format := tell store (.setOutputFormat format)
  updateItems ids := tell store (.updateItems ids)
  updateUncitedItems ids := tell store (.updateUncitedItems ids)
  processCluster cluster before after :=
    ask store (.processCluster cluster before after) Outcome.ofJson
  makeBibliography := ask store .makeBibliography Request.entriesOfJson

end Conversation

end CitationFilter
