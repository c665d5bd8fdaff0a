import CitationFilter.Run.Basic

/-!
# What a run reads

Which files a run may read is known as soon as its settings and its input are: the style and the
library that the document names, and the locales of the languages in the settings. Whoever knows the
contents of these files knows all that the surroundings have to say before the engine is started.
-/

namespace CitationFilter

namespace Run

/-- The paths of all files that a run may read. -/
def reads (settings : Settings) (programDir input : String) : List String :=
  let directory := settings.localesDirOr programDir
  match Document.ofText input >>= paths with
  | .error _ => []
  | .ok (style, library) => style :: library :: settings.locales.map (Locales.path directory)

end Run

end CitationFilter
