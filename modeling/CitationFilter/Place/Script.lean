import CitationFilter.Place.Tree
import CitationFilter.Text.Blank

/-!
# Scripted engines

The simplest engine says what is in a file, hangs up, and keeps what it is told in another file.
Such an engine is a script for the shell, of which three forms of command are enough: to say a file,
to hang up and to keep what comes in. It is started by the shell itself or is a file that can be
executed.

Starting a command fails as it does for any program: a name without a slash is looked for among the
installed programs, of which there is only the shell, and any other is a path.
-/

namespace CitationFilter

/-- A command of a script. -/
inductive Script.Command where
  /-- Says what is in a file. -/
  | say (path : String)
  | hangUp
  /-- Keeps what comes in, in a file. -/
  | keep (path : String)
deriving DecidableEq, Repr

/-- What an engine does, in order. -/
abbrev Script := List Script.Command

namespace Script

/-! ## Reading scripts -/

/-- What follows a beginning. -/
def after? : List Char → List Char → Option (List Char)
  | [], rest => some rest
  | _ :: _, [] => none
  | c :: start, d :: rest => if c = d then after? start rest else none

/-- The path that blanks surround. -/
def pathIn (cs : List Char) : String := String.ofList (Text.trimmed cs)

/-- The command in a piece of a script. -/
def command? (piece : List Char) : Option Command :=
  let piece := Text.trimmed piece
  match after? "cat >".toList piece, after? "cat ".toList piece with
  | some path, _ => some (.keep (pathIn path))
  | none, some path => some (.say (pathIn path))
  | none, none => if piece = "exec 1>&-".toList then some .hangUp else none

/-- The pieces of a script, which a semicolon or the end of the line ends. -/
def pieces (text : List Char) : List (List Char) := text.splitOnP fun c ↦ c = ';' || c = '\n'

/-- Reads a script. Anything but the three forms does nothing. -/
def ofText (text : String) : Script := (pieces text.toList).filterMap command?

/-! ## Running scripts -/

/-- What an engine says before it hangs up. A file that cannot be read says nothing, and once the
engine keeps what comes in, it is occupied with that to the end. -/
def speech (tree : FileTree) : Script → Bytes
  | .say path :: rest => ((tree.contents path).toOption).getD [] ++ speech tree rest
  | _ => []

/-- Where an engine keeps what it is told. -/
def keeper? (script : Script) : Option String :=
  script.findSome? fun
    | .keep path => some path
    | _ => none

/-! ## Starting commands -/

/-- The path of the shell. -/
def shellPath : String := "/bin/sh"

/-- Whether a command is the shell. -/
def isShell (command : String) : Bool := command = "sh" || command = shellPath

/-- The script that the shell is given. -/
def ofArgs : List String → Script
  | "-c" :: text :: _ => ofText text
  | _ => []

/-- The script in a file that can be executed. Its first line names what interprets the rest. -/
def ofFile (contents : Bytes) : Except FileError Script :=
  let text := Bytes.shown contents
  match after? "#!".toList text with
  | none => .error .notExecutable
  | some rest =>
    if pathIn (rest.takeWhile (· ≠ '\n')) = shellPath then
      .ok (ofText (String.ofList rest))
    else .error .notFound

/-- The script that a command runs. -/
def start (tree : FileTree) (command : String) (args : List String) : Except FileError Script :=
  if (command :: args).any fun s ↦ s.toList.contains '\x00' then .error .nulInCommand
  else if isShell command then .ok (ofArgs args)
  else if !command.toList.contains '/' then .error .notFound
  else do
    match ← tree.locate command with
    | .directory _ => .error .permissionDenied
    | .file _ false => .error .permissionDenied
    | .file contents true => ofFile contents

end Script

end CitationFilter
