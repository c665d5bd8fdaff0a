/-!
# Reading the command line

The arguments name the target format and a few options, or ask for a file with the default settings.
An option has a long name after two dashes and a letter after one. Letters may share a dash up to
the first that takes a value. A value is attached, with or without an equals sign after a letter,
and with one after a long name, or it is the next argument. After a lone double dash everything is
the target format.

Reading goes from left to right. A request for help or for the version is granted where it stands,
and an argument that makes no sense is refused there. That an option lacks its value, or that it is
given twice, is noticed only at the end.
-/

namespace CitationFilter

namespace CommandLine

/-! ## Options -/

/-- The options. -/
inductive Opt where
  | config
  | engine
  | locales
  | verbose
  | debug
  | help
  | version
deriving DecidableEq, Repr

namespace Opt

/-- All options. -/
def all : List Opt := [.config, .engine, .locales, .verbose, .debug, .help, .version]

/-- The long name. -/
def name : Opt → String
  | .config => "config"
  | .engine => "engine"
  | .locales => "locales"
  | .verbose => "verbose"
  | .debug => "debug"
  | .help => "help"
  | .version => "version"

/-- The letter. -/
def letter : Opt → Char
  | .config => 'c'
  | .engine => 'e'
  | .locales => 'l'
  | .verbose => 'v'
  | .debug => 'd'
  | .help => 'h'
  | .version => 'V'

/-- Whether an option takes a value. -/
def takesValue : Opt → Bool
  | .config | .engine | .locales | .verbose => true
  | .debug | .help | .version => false

/-- The option with a long name. -/
def ofName? (name : String) : Option Opt := all.find? fun o ↦ o.name = name

/-- The option with a letter. -/
def ofLetter? (letter : Char) : Option Opt := all.find? fun o ↦ o.letter = letter

end Opt

/-! ## What is asked for -/

/-- How the filter is to be run. -/
structure Options where
  /-- The configuration file. -/
  config : Option String
  /-- The command of the engine. -/
  engine : Option String
  /-- The directory of the locales. -/
  locales : Option String
  /-- The target format. -/
  format : Option String
  /-- Whether a log is kept in a file. -/
  debug : Bool
deriving DecidableEq, Repr

/-- What the arguments ask for. -/
inductive Job where
  | filter (options : Options)
  /-- A file with the default settings. -/
  | createSettings (debug : Bool)
  | help
  | version
deriving DecidableEq, Repr

/-! ## Reading one argument -/

/-- What has been read so far. -/
structure Reading where
  /-- The options that are complete, with their values. -/
  given : List (Opt × String)
  /-- The option that the next argument may be the value of. -/
  awaiting : Option Opt
  /-- Whether no option lacks its value so far. -/
  complete : Bool
  /-- The target format. -/
  format : Option String
deriving DecidableEq, Repr

namespace Reading

/-- Before the first argument. -/
def start : Reading := ⟨[], none, true, none⟩

/-- Gives up waiting for a value. -/
def settle (r : Reading) : Reading :=
  { r with awaiting := none, complete := r.complete && r.awaiting.isNone }

/-- Adds an option with its value. -/
def give (r : Reading) (o : Opt) (value : String) : Reading :=
  { r.settle with given := r.given ++ [(o, value)] }

/-- Adds an option of which the value is to follow. -/
def await (r : Reading) (o : Opt) : Reading := { r.settle with awaiting := some o }

/-- The value of an option. -/
def value? (r : Reading) (o : Opt) : Option String := r.given.lookup o

/-- Whether the options are given at most once, each with its value. -/
def isSound (r : Reading) : Bool :=
  r.settle.complete && decide (r.given.map Prod.fst).Nodup

/-- Whether a log is asked for. -/
def debug (r : Reading) : Bool := (r.value? .debug).isSome

/-- The options that have been read. -/
def options (r : Reading) : Options :=
  ⟨r.value? .config, r.value? .engine, r.value? .locales, r.format, r.debug⟩

/-- Where reading ends before the last argument: with a request, or with a refusal. -/
abbrev Stop := Option Job

/-- Adds an option that takes no value. -/
def giveFlag (r : Reading) : Opt → Except Stop Reading
  | .help => .error (some .help)
  | .version => .error (some .version)
  | o => .ok (r.give o "")

/-- Reads the letters after a single dash. -/
def letters (r : Reading) : List Char → Except Stop Reading
  | [] => .ok r
  | c :: rest =>
    match Opt.ofLetter? c with
    | none => .error none
    | some o =>
      if o.takesValue then
        match rest with
        | [] => .ok (r.await o)
        | '=' :: value => .ok (r.give o (String.ofList value))
        | value => .ok (r.give o (String.ofList value))
      else do
        let r ← r.giveFlag o
        letters r rest

/-- Reads a long name, with the value that an equals sign attaches to it. -/
def long (r : Reading) (cs : List Char) : Except Stop Reading :=
  let name := cs.takeWhile (· ≠ '=')
  match Opt.ofName? (String.ofList name), cs.drop name.length with
  | none, _ => .error none
  | some o, [] => if o.takesValue then .ok (r.await o) else r.giveFlag o
  | some o, _ :: value => if o.takesValue then .ok (r.give o (String.ofList value)) else .error none

/-- Reads the target format, of which there is at most one. -/
def target (r : Reading) (arg : String) : Except Stop Reading :=
  match r.format with
  | some _ => .error none
  | none => .ok { r.settle with format := some arg }

/-- Reads an argument that is no command, where there has been no double dash. -/
def argument (r : Reading) (arg : String) : Except Stop Reading :=
  match arg.toList, r.awaiting with
  | '-' :: '-' :: cs, _ => r.long cs
  | '-' :: c :: cs, _ => r.letters (c :: cs)
  | _, some o => .ok { r with given := r.given ++ [(o, arg)], awaiting := none }
  | _, none => r.target arg

end Reading

/-! ## Reading all arguments -/

/-- The command that asks for a file with the default settings. -/
def createCommand : String := "init-config"

/-- The command that asks for help. -/
def helpCommand : String := "help"

/-- The request for a file with the default settings, if what has been read is sound. -/
def created (r : Reading) : Option Job :=
  if r.isSound then some (.createSettings r.debug) else none

/-- Reads what follows the command that asks for a file. It takes no arguments but a request for
help. -/
def afterCreate (r : Reading) : List String → Option Job
  | [] => created r
  | arg :: rest =>
    if arg = "--" then if rest.isEmpty then created r else none
    else if arg = "--help" || ['-', 'h'].isPrefixOf arg.toList then some .help
    else none

/-- Reads what follows the command that asks for help: nothing, or the name of a command. -/
def afterHelp : List String → Option Job
  | [] => some .help
  | [name] => if name = createCommand || name = helpCommand then some .help else none
  | _ => none

/-- Ends the reading. -/
def finish (r : Reading) : Option Job :=
  if r.isSound then some (.filter r.options) else none

/-- Reads arguments after a double dash. -/
def afterDashes (r : Reading) : List String → Option Job
  | [] => finish r
  | arg :: rest =>
    match r.target arg with
    | .ok r => afterDashes r rest
    | .error stop => stop

/-- Reads arguments, given what has been read before them. -/
def readFrom (r : Reading) : List String → Option Job
  | [] => finish r
  | arg :: rest =>
    if r.awaiting.isNone && arg = createCommand then afterCreate r rest
    else if r.awaiting.isNone && arg = helpCommand then afterHelp rest
    else if arg = "--" then afterDashes r rest
    else
      match r.argument arg with
      | .ok r => readFrom r rest
      | .error stop => stop

/-- Reads the arguments; nothing if they are refused. -/
def Job.ofArgs? (args : List String) : Option Job := readFrom .start args

end CommandLine

end CitationFilter
