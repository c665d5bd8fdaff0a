import CitationFilter.Library.Distinct
import CitationFilter.Run.Surroundings

/-!
# Locales

The data of a language are in a file of their own, which is named for the language. A language
without a readable file is no error: it is left out, and the engine falls back on what it has.
-/

namespace CitationFilter

namespace Locales

/-- The path of a file in a directory; the empty directory is the one where the run happens. -/
def inside (directory name : String) : String :=
  match directory.toList.getLast? with
  | none => name
  | some '/' => directory ++ name
  | some _ => directory ++ "/" ++ name

/-- The path of the data of a language. -/
def path (directory lang : String) : String := inside directory ("locales-" ++ lang ++ ".xml")

/-- The languages that have data, each once, with the data. -/
def found (around : Surroundings) (directory : String) (langs : List String) :
    List (String × String) :=
  (distinct langs).filterMap fun lang ↦
    ((around.load (path directory lang)).toOption).map fun text ↦ (lang, text)

/-- The languages that have none, as often as they are asked for. -/
def missing (around : Surroundings) (directory : String) (langs : List String) : List String :=
  langs.filter fun lang ↦ (around.load (path directory lang)).toOption.isNone

end Locales

end CitationFilter
