import CitationFilter.Error

/-!
# Notices

The output of the filter is the document and nothing else. What the filter has to tell its user are
notices, one line each, which go elsewhere. A notice is known by its cause, and its line is a
function of the cause: a level in colour, then what there is to say.
-/

namespace CitationFilter

/-- The colours of the terminal in use. -/
inductive Colour where
  | red
  | green
  | yellow
  | blue
deriving DecidableEq, Repr

namespace Colour

/-- The number of a colour in the terminal's control sequences. -/
def number : Colour → String
  | .red => "31"
  | .green => "32"
  | .yellow => "33"
  | .blue => "34"

/-- A text in a colour. -/
def paint (colour : Colour) (text : String) : String :=
  "\x1b[" ++ colour.number ++ "m" ++ text ++ "\x1b[0m"

end Colour

/-- What the program was doing when an error ended it. -/
inductive Activity where
  | creatingSettings
  | readingSettings
  | readingInput
  | resolving
  | writingOutput
deriving DecidableEq, Repr

/-- What the user is told. -/
inductive Notice where
  | starting
  /-- The locale of a language cannot be read from its path. -/
  | localeMissing (lang path : String)
  | formatting
  | finished
  /-- The file with the default settings is being created. -/
  | creatingSettings (path : String)
  /-- The log cannot be opened. -/
  | logUnavailable (cause : FileError)
  /-- An error with this message ended the program. -/
  | failed (activity : Activity) (message : String)
deriving DecidableEq, Repr

namespace Notice

/-- The start of a line that informs. -/
def info : String := Colour.green.paint "INFO" ++ " "

/-- The start of a line that warns. -/
def warning : String := Colour.yellow.paint "WARN" ++ " "

/-- The start of a line about an error. -/
def error : String := Colour.red.paint "ERRO" ++ " "

/-- What failed, in words. -/
def subject : Activity → String
  | .creatingSettings => "Configuration file error"
  | .readingSettings => "Configuration error"
  | .readingInput => "Input error"
  | .resolving => "Citation error"
  | .writingOutput => "Output error"

/-- The line of a notice. -/
def line : Notice → String
  | .starting => info ++ "Starting pancite..."
  | .localeMissing lang path =>
    warning ++ "Locale " ++ Colour.blue.paint lang ++ " unavailable (" ++ path ++ ")"
  | .formatting => info ++ "Formatting citations..."
  | .finished => info ++ "Done"
  | .creatingSettings path =>
    info ++ "Creating blank configuration file (" ++ Colour.blue.paint path ++ ")"
  | .logUnavailable cause => error ++ "Cannot open pancite-log.json: " ++ cause.message
  | .failed activity message => error ++ subject activity ++ ": " ++ message

/-- The lines of notices, each ended by a line feed. -/
def lines (notices : List Notice) : String :=
  String.join (notices.map fun notice ↦ notice.line ++ "\n")

end Notice

end CitationFilter
