import CitationFilter.Proofs.Except
import CitationFilter.Proofs.Step
import CitationFilter.Run.Basic

/-!
# The stages of a run

A run goes through nine stages, six of them before the engine is started. `Run.Stage.outcome` says
how each stage ends by itself: it is computed from what the stage needs, and from nothing else. The
library is loaded from its path, for one, and whether the style has been loaded has no part in that.
If a stage does not get what it needs, it ends as the one that should have made it.

The run of the filter is the stages one after the other, and then the text of the resolved document
(`Run.result_filter`). So it fails like the first stage that fails.
-/

namespace CitationFilter

namespace Run

/-! ## What the stages make -/

section Results

variable (around : Surroundings) (settings : Settings) (input : String)

/-- The path of the style. -/
def stylePath : Except Error String := do
  let document ← Document.ofText input
  document.metadata.text styleField

/-- The path of the library. -/
def libraryPath : Except Error String := do
  let document ← Document.ofText input
  document.metadata.text libraryField

/-- The text of the style. -/
def style : Except Error String := do
  let path ← stylePath input
  around.load path

/-- The text of the library. -/
def library : Except Error String := do
  let path ← libraryPath input
  around.load path

/-- The items of the library, which is read as its path says. -/
def items : Except Error (List Item) := do
  let path ← libraryPath input
  let text ← library around input
  Library.ofText path text

/-- What the engine is going to say. -/
def speech : Except Error Bytes :=
  (around.speech settings.engine.command settings.engine.args).mapError
    (.engineSpawn settings.engine.command)

/-- The store with these items and with the locales that there are. -/
def store (items : List Item) : Store :=
  ⟨items, Locales.found around (settings.localesDirOr around.programDir) settings.locales⟩

/-- How the engine takes the style, and the conversation after it. -/
def introduction (style : String) (items : List Item) (script : Bytes) :
    Except Error Unit × Conversation :=
  Step.runFrom (Conversation.tell (store around settings items) (.init style settings.engine.lang))
    (.start script none)

/-- The conversation with an engine that has taken the style. -/
def introduced : Except Error Conversation := do
  let style ← style around input
  let items ← items around input
  let script ← speech around settings
  let (result, conversation) := introduction around settings style items script
  result.map fun _ ↦ conversation

/-- The document with its citations resolved. -/
def resolved : Except Error Document := do
  let document ← Document.ofText input
  let items ← items around input
  let conversation ← introduced around settings input
  let store := store around settings items
  (Step.runFrom
    (Resolution.resolve (Conversation.engine store) store settings.rawFormat document)
    conversation).1

end Results

/-! ## Stages -/

/-- The stages of a run. -/
inductive Stage where
  /-- The document is read. -/
  | document
  /-- The metadata name the style. -/
  | stylePath
  /-- The metadata name the library. -/
  | libraryPath
  /-- The style is loaded. -/
  | style
  /-- The library is loaded. -/
  | library
  /-- The library is read. -/
  | items
  /-- The engine is started. -/
  | speech
  /-- The engine takes the style. -/
  | introduction
  /-- The document is resolved. -/
  | resolution
deriving DecidableEq, Repr

namespace Stage

/-- The stages before the engine, in order. -/
def beforeEngine : List Stage := [document, stylePath, libraryPath, style, library, items]

/-- The stages with the engine, in order. -/
def withEngine : List Stage := [speech, introduction, resolution]

/-- All stages, in order. -/
def all : List Stage := beforeEngine ++ withEngine

/-- How a stage ends by itself. -/
def outcome (around : Surroundings) (settings : Settings) (input : String) :
    Stage → Except Error Unit
  | document => (Document.ofText input).map fun _ ↦ ()
  | stylePath => (Run.stylePath input).map fun _ ↦ ()
  | libraryPath => (Run.libraryPath input).map fun _ ↦ ()
  | style => (Run.style around input).map fun _ ↦ ()
  | library => (Run.library around input).map fun _ ↦ ()
  | items => (Run.items around input).map fun _ ↦ ()
  | speech => (Run.speech around settings).map fun _ ↦ ()
  | introduction => (introduced around settings input).map fun _ ↦ ()
  | resolution => (resolved around settings input).map fun _ ↦ ()

end Stage

/-! ## The stages one after the other -/

variable {around : Surroundings} {settings : Settings} {input : String} {prepared : Prepared}

/-- The conversation of a prepared run with an engine that is going to say this. -/
def conversation (around : Surroundings) (settings : Settings) (prepared : Prepared)
    (script : Bytes) : Except Error Document × Conversation :=
  Step.runFrom
    (converse settings prepared.style (store around settings prepared.items) prepared.document)
    (.start script none)

variable {script : Bytes}

end Run

end CitationFilter
