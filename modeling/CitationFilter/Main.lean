import CitationFilter.CommandLine.Basic
import CitationFilter.Run.Reads

/-!
# The program at work

The outermost layer gathers what there is around the program, has `CommandLine.program` decide how
it ends, and brings that end about. Nothing is decided here. What becomes of the output is known
only once it has been written, so the program is asked once more after that.

The engine is a program of its own. It is reached over two named pipes, whose names are its command
with the endings `.out` for what it says and `.in` for what it is told. The program is a function of
all that the engine says, so it is run again whenever a line has been heard, for as long as it would
listen on. What it has sent before, it sends again in the same order, and only the rest is new.
-/

namespace CitationFilter

namespace Main

/-! ## Files -/

/-- The cause of a failure to use a file. -/
def causeOf : IO.Error → FileError
  | .noFileOrDirectory .. => .notFound
  | .permissionDenied .. => .permissionDenied
  | .inappropriateType _ code _ => if code = 20 then .notDirectory else .isDirectory
  | .invalidArgument .. => .nameTooLong
  | _ => .permissionDenied

/-- The result of an action on a file. -/
def attempt {α : Type} (action : IO α) : IO (Except FileError α) := do
  try
    return .ok (← action)
  catch e =>
    return .error (causeOf e)

/-- The contents of a file. -/
def readFile (path : String) : IO (Except FileError Bytes) :=
  attempt do
    return (← IO.FS.readBinFile path).data.toList

/-- The contents of files. -/
def readFiles (paths : List String) : IO (List (String × Except FileError Bytes)) :=
  paths.mapM fun path ↦ return (path, ← readFile path)

/-- Whether files can be written, up to the first that cannot. -/
def tryFiles : List String → IO (List (String × Except FileError Unit))
  | [] => return []
  | path :: rest => do
    match ← attempt (IO.FS.Handle.mk path .append) with
    | .ok _ => return (path, .ok ()) :: (← tryFiles rest)
    | .error cause => return [(path, .error cause)]

/-- What is known of a path. -/
def known {α : Type} (facts : List (String × Except FileError α)) (path : String) :
    Except FileError α :=
  (facts.lookup path).getD (.error .notFound)

/-! ## Gathering the surroundings -/

/-- The files that a job writes, in order. -/
def writes : CommandLine.Job → List String
  | .createSettings true => [CommandLine.logPath, CommandLine.newSettingsPath]
  | .createSettings false => [CommandLine.newSettingsPath]
  | .filter options => if options.debug then [CommandLine.logPath] else []
  | .help | .version => []

/-- The surroundings of a job, with an engine that says nothing. -/
def gather (job : CommandLine.Job) (input : Bytes) : IO Surroundings := do
  let programDir := (← IO.appDir).toString
  let writable := known (← tryFiles (writes job))
  let quiet : Surroundings :=
    ⟨fun _ ↦ .error .notFound, writable, fun _ _ ↦ .ok [], fun _ ↦ .whole, programDir⟩
  match job with
  | .filter options =>
    let first ← readFiles options.config.toList
    let around := { quiet with contents := known first }
    match CommandLine.loadSettings around options.config, input.toText? with
    | .ok settings, some text =>
      let settings := settings.withOverrides options.engine options.locales
      let rest ← readFiles (Run.reads settings programDir text)
      return { quiet with contents := known (first ++ rest) }
    | _, _ => return around
  | _ => return quiet

/-! ## Talking to the engine -/

/-- Reads bytes up to the end of a line. -/
partial def readLine (inbox : IO.FS.Handle) : IO Bytes := do
  match (← inbox.read 1).data.toList with
  | [] => return []
  | b :: _ => if b = Bytes.lineFeed then return [b] else return b :: (← readLine inbox)

/-- Lets the program go on with what the engine has said so far, for as long as there is more. The
result is all that the engine has said. -/
partial def converse (program : Bytes → Ending) (inbox outbox : IO.FS.Handle) (heard : Bytes)
    (told : Nat) : IO Bytes := do
  match (program heard).exchange with
  | none => return heard
  | some exchange =>
    for line in exchange.sent.drop told do
      outbox.putStrLn line
    outbox.flush
    unless exchange.listening do
      return heard
    let line ← readLine inbox
    if line.isEmpty then
      return heard
    converse program inbox outbox (heard ++ line) exchange.sent.length

/-- Connects the engine if the program gets to starting it, and adds to the surroundings what the
engine has said. -/
def engage (around : Surroundings) (args : List String) (input : Bytes) : IO Surroundings := do
  let hearing (speech : Except FileError Bytes) : Surroundings :=
    { around with speech := fun _ _ ↦ speech }
  let program (heard : Bytes) : Ending := CommandLine.program (hearing (.ok heard)) args input
  match (program []).exchange with
  | none => return around
  | some exchange =>
    match ← attempt (IO.FS.Handle.mk (exchange.command ++ ".out") .read) with
    | .error cause => return hearing (.error cause)
    | .ok inbox =>
      match ← attempt (IO.FS.Handle.mk (exchange.command ++ ".in") .append) with
      | .error cause => return hearing (.error cause)
      | .ok outbox => return hearing (.ok (← converse program inbox outbox [] 0))

/-! ## Bringing the end about -/

/-- The cause of a failure to write the output. -/
def outputErrorOf : IO.Error → OutputError
  | .resourceExhausted .. => .noSpace
  | .resourceVanished .. => .brokenPipe
  | e => .other (toString e)

/-- Writes a text to the output. If it breaks off, nobody says after how many bytes. -/
def deliver (text : String) : IO Delivery := do
  let output ← IO.getStdout
  try
    output.putStr text
    output.flush
    return .whole
  catch e =>
    return .broken 0 (outputErrorOf e)

/-- Writes what the program writes. How it ends may depend on what becomes of that. -/
def finish (program : Delivery → Ending) : IO UInt32 := do
  let ending := program .whole
  for (path, contents) in ending.written do
    IO.FS.writeBinFile path ⟨contents.toArray⟩
  let ending := program (← deliver ending.output)
  IO.eprint (Notice.lines ending.notices)
  return ending.code.toUInt32

end Main

end CitationFilter

open CitationFilter in
/-- Runs the program on its arguments and its standard input. -/
def main (args : List String) : IO UInt32 := do
  match CommandLine.Job.ofArgs? args with
  | none => Main.finish fun _ ↦ CommandLine.refused
  | some job =>
    let input ←
      match job with
      | .filter _ => (← IO.getStdin).readBinToEnd
      | _ => pure ByteArray.empty
    let input := input.data.toList
    let around ← Main.engage (← Main.gather job input) args input
    Main.finish fun delivery ↦
      CommandLine.program { around with output := fun _ ↦ delivery } args input
