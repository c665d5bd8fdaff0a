import CitationFilter.Citation.Resolution
import CitationFilter.Engine.Conversation
import CitationFilter.Library.Format
import CitationFilter.Run.Locales
import CitationFilter.Run.Notice
import CitationFilter.Settings.Basic

/-!
# Runs of the filter

A run reads everything it needs, starts the engine and resolves the document. It is all or nothing:
either every stage succeeds and there is a text, or the first stage that fails gives the error.

`prepare` holds the stages that come before the engine. The engine is started only if all of them
succeed, and the first thing it is told is the style.
-/

namespace CitationFilter

/-- What is known before the engine is started. -/
structure Prepared where
  /-- The document to resolve. -/
  document : Document
  /-- The text of the style. -/
  style : String
  /-- The items of the library. -/
  items : List Item

/-- What happened between a run and the engine it started. -/
structure Exchange where
  /-- The command of the engine. -/
  command : String
  /-- The arguments of the command. -/
  args : List String
  /-- The lines that the engine was sent. -/
  sent : List String
  /-- Whether the run would have listened on when the engine fell silent. -/
  listening : Bool
deriving DecidableEq, Repr

/-- How a run ends. -/
structure Run where
  /-- The resolved document, or what went wrong first. -/
  result : Except Error String
  /-- What the user is told. -/
  notices : List Notice
  /-- The exchange with the engine, if it was started. -/
  exchange : Option Exchange

namespace Run

/-! ## Before the engine -/

/-- The metadata field with the path of the style. -/
def styleField : String := "csl"

/-- The metadata field with the path of the library. -/
def libraryField : String := "bibliography"

/-- The paths of the style and of the library. -/
def paths (document : Document) : Except Error (String × String) := do
  let style ← document.metadata.text styleField
  let library ← document.metadata.text libraryField
  return (style, library)

/-- Reads the document and the files that it names. -/
def prepare (around : Surroundings) (input : String) : Except Error Prepared := do
  let document ← Document.ofText input
  let (stylePath, libraryPath) ← paths document
  let style ← around.load stylePath
  let library ← around.load libraryPath
  let items ← Library.ofText libraryPath library
  return ⟨document, style, items⟩

/-! ## With the engine -/

/-- Gives the engine the style and resolves the document. -/
def converse (settings : Settings) (style : String) (store : Store) (document : Document) :
    Step Conversation Document := do
  Conversation.tell store (.init style settings.engine.lang)
  Resolution.resolve (Conversation.engine store) store settings.rawFormat document

/-- Whether an error says that the engine fell silent. -/
def isSilence : Error → Bool
  | .engineClosed => true
  | _ => false

/-- What a conversation leaves behind. -/
def exchanged (settings : EngineSettings) (result : Except Error Document)
    (conversation : Conversation) : Exchange :=
  let listening :=
    match result with
    | .ok _ => false
    | .error e => isSilence e
  ⟨settings.command, settings.args, conversation.outbox.sent, listening⟩

/-- The notices before the engine is started, given the directory of the locales and the languages
that have none. -/
def announced (directory : String) (missing : List String) : List Notice :=
  .starting ::
    missing.map (fun lang ↦ .localeMissing lang (Locales.path directory lang)) ++ [.formatting]

/-- The run of a prepared document. -/
def resolve (around : Surroundings) (settings : Settings) (prepared : Prepared) : Run :=
  let directory := settings.localesDirOr around.programDir
  let announced := announced directory (Locales.missing around directory settings.locales)
  let store : Store := ⟨prepared.items, Locales.found around directory settings.locales⟩
  match around.speech settings.engine.command settings.engine.args with
  | .error cause => ⟨.error (.engineSpawn settings.engine.command cause), announced, none⟩
  | .ok script =>
    let (result, conversation) :=
      (converse settings prepared.style store prepared.document).run.run (.start script none)
    let exchange := exchanged settings.engine result conversation
    match result with
    | .ok document => ⟨.ok document.toText, announced ++ [.finished], some exchange⟩
    | .error e => ⟨.error e, announced, some exchange⟩

/-- The run of the filter on a text. -/
def filter (around : Surroundings) (settings : Settings) (input : String) : Run :=
  match prepare around input with
  | .error e => ⟨.error e, [.starting], none⟩
  | .ok prepared => resolve around settings prepared

end Run

end CitationFilter
