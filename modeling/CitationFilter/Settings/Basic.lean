/-!
# Settings

What can be set: how the engine is started, where the locales are, and how the replaced citations
are marked. Everything has a default, and the command line may override two of the settings.
-/

namespace CitationFilter

/-- How the engine is started. -/
structure EngineSettings where
  /-- The program that hosts the engine. -/
  command : String
  /-- Its arguments. -/
  args : List String
  /-- The default language of the engine. -/
  lang : String
deriving DecidableEq, Repr

/-- All settings. -/
structure Settings where
  /-- How the engine is started. -/
  engine : EngineSettings
  /-- The directory of the locales; without one it is the directory of the program. -/
  localesDir : Option String
  /-- The languages of which the locales are loaded. -/
  locales : List String
  /-- The format given to the raw inlines that replace citations. -/
  rawFormat : String
deriving DecidableEq, Repr

/-- The default of how the engine is started. -/
def EngineSettings.default : EngineSettings where
  command := "citeproc-bridge"
  args := []
  lang := "en-US"

namespace Settings

/-- The default settings. -/
def default : Settings where
  engine := .default
  localesDir := none
  locales := ["en-US", "ja-JP"]
  rawFormat := "markdown"

/-- Overrides the command of the engine and the directory of the locales where they are given. -/
def withOverrides (settings : Settings) (command localesDir : Option String) : Settings :=
  { settings with
    engine := { settings.engine with command := command.getD settings.engine.command }
    localesDir := localesDir <|> settings.localesDir }

/-- The directory to read the locales from, given that of the program. -/
def localesDirOr (settings : Settings) (programDir : String) : String :=
  settings.localesDir.getD programDir

end Settings

end CitationFilter
