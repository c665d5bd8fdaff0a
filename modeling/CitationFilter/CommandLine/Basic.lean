import CitationFilter.CommandLine.Options
import CitationFilter.Run.Basic
import CitationFilter.Settings.Blank
import CitationFilter.Settings.Read

/-!
# The program

The program reads its arguments, then its settings, then its input, and runs the filter. It ends
with a code: zero if it did what was asked, one after an error, and two if the arguments are
refused. What is written is all or nothing: it is the resolved document, or nothing after an error.
The one error that comes later is that the output does not take the document.
-/

namespace CitationFilter

/-- How the program ends. -/
structure Ending where
  /-- The exit code. -/
  code : Nat
  /-- What is written to the output, which may not take all of it. -/
  output : String
  /-- What the user is told. -/
  notices : List Notice
  /-- The files that are written, with their contents. -/
  written : List (String × Bytes)
  /-- The exchange with the engine, if it was started. -/
  exchange : Option Exchange

namespace CommandLine

/-! ## Endings -/

/-- The program does what was asked, with an output. Nobody looks whether the output takes it. -/
def done (output : String) : Ending := ⟨0, output, [], [], none⟩

/-- An error ends the program. -/
def failed (activity : Activity) (message : String) : Ending :=
  ⟨1, "", [.failed activity message], [], none⟩

/-- The arguments are refused. -/
def refused : Ending := ⟨2, "", [], [], none⟩

/-! ## Help and version -/

/-- The answer to a request for the version. -/
def versionText : String := "pancite 0.1.0\n"

/-- The answer to a request for help. -/
def helpText : String :=
  String.join (
    ["pancite 0.1.0",
      "A Pandoc filter that formats citations with a CSL engine",
      "",
      "USAGE:",
      "    pancite [OPTIONS] [FORMAT] [SUBCOMMAND]",
      "",
      "ARGS:",
      "    <FORMAT>    The target format (passed by Pandoc)",
      "",
      "OPTIONS:",
      "    -c, --config <FILE>       A RON configuration file",
      "    -e, --engine <COMMAND>    The citation engine command (overrides the configuration)",
      "    -h, --help                Print help information",
      "    -l, --locales <DIR>       The directory holding locales-<lang>.xml",
      "    -V, --version             Print version information",
      "",
      "SUBCOMMANDS:",
      "    help           Print this message or the help of the given subcommand(s)",
      "    init-config    For creating a blank configuration file (pancite.ron)"].map (· ++ "\n"))

/-! ## Creating a configuration file -/

/-- The path of a new configuration file. -/
def newSettingsPath : String := "pancite.ron"

/-- Creates a configuration file with the default settings. -/
def createSettings (around : Surroundings) : Ending :=
  let announced : Notice := .creatingSettings newSettingsPath
  match around.writable newSettingsPath with
  | .ok () =>
    ⟨0, "", [announced], [(newSettingsPath, Bytes.ofText Settings.blankText)], none⟩
  | .error cause =>
    let message := (Error.io newSettingsPath cause).message
    ⟨1, "", [announced, .failed .creatingSettings message], [], none⟩

/-! ## Running the filter -/

/-- The settings in the configuration file, if there is one, or else the default ones. -/
def loadSettings (around : Surroundings) : Option String → Except Error Settings
  | none => .ok .default
  | some path => do
    let text ← around.load path
    (Settings.ofText? text).elim (.error .settings) .ok

/-- How the program ends after a run. A document that the output does not take is an error, too. -/
def afterRun (around : Surroundings) (run : Run) : Ending :=
  match run.result with
  | .error e => ⟨1, "", run.notices ++ [.failed .resolving e.message], [], run.exchange⟩
  | .ok output =>
    match around.output output with
    | .whole => ⟨0, output, run.notices, [], run.exchange⟩
    | .broken _ cause =>
      ⟨1, output, run.notices ++ [.failed .writingOutput cause.message], [], run.exchange⟩

/-- Runs the filter on the bytes of the input. -/
def runFilter (around : Surroundings) (options : Options) (input : Bytes) : Ending :=
  match loadSettings around options.config with
  | .error e => failed .readingSettings e.message
  | .ok settings =>
    match input.toText? with
    | none => failed .readingInput FileError.invalidText.message
    | some text =>
      let settings := settings.withOverrides options.engine options.locales
      afterRun around (Run.filter around settings text)

/-! ## The log -/

/-- The path of the log. -/
def logPath : String := "./pancite-log.json"

/-- Starts the log if it is asked for, and goes on only if it can be written. -/
def withLog (around : Surroundings) (debug : Bool) (ending : Ending) : Ending :=
  if debug then
    match around.writable logPath with
    | .ok () => { ending with written := (logPath, []) :: ending.written }
    | .error cause => ⟨1, "", [.logUnavailable cause], [], none⟩
  else ending

/-! ## The program -/

/-- The program, given its arguments and its input. -/
def program (around : Surroundings) (args : List String) (input : Bytes) : Ending :=
  match Job.ofArgs? args with
  | none => refused
  | some .help => done helpText
  | some .version => done versionText
  | some (.createSettings debug) => withLog around debug (createSettings around)
  | some (.filter options) => withLog around options.debug (runFilter around options input)

end CommandLine

end CitationFilter
