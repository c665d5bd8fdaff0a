import CitationFilter.Error
import CitationFilter.Text.Lines

/-!
# Surroundings

A run asks four things of the place where it happens: what is in a file, whether a file can be
written, what an engine says once it is started, and what becomes of a text that is written to the
output. `Surroundings` collects the answers. They are functions, so that a run is one too: with
equal surroundings it ends in the same way.

An engine is represented by everything it is ever going to say. What it is told does not change
that, so its output can be laid out before the first request.
-/

namespace CitationFilter

/-- What becomes of a text that is written to the output. -/
inductive Delivery where
  /-- The output takes all of it. -/
  | whole
  /-- The output takes only so many bytes from the front. -/
  | broken (taken : Nat) (cause : OutputError)
deriving DecidableEq, Repr

/-- What a run finds where it happens. -/
structure Surroundings where
  /-- The contents of the file at a path. -/
  contents : String → Except FileError Bytes
  /-- Whether a file can be written at a path. -/
  writable : String → Except FileError Unit
  /-- What the engine says that a command starts with its arguments. -/
  speech : String → List String → Except FileError Bytes
  /-- How the output takes a text. -/
  output : String → Delivery
  /-- The directory of the program. -/
  programDir : String

namespace Surroundings

/-- The text of the file at a path. -/
def text (around : Surroundings) (path : String) : Except FileError String := do
  let contents ← around.contents path
  match contents.toText? with
  | some text => .ok text
  | none => .error .invalidText

/-- Loads a file, which has to be a text. -/
def load (around : Surroundings) (path : String) : Except Error String :=
  (around.text path).mapError (Error.io path)

end Surroundings

end CitationFilter
