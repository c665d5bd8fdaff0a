/-!
# The blank configuration file

A new configuration file has every setting at its default and says what each is for, so that it can
be edited where something should differ.
-/

namespace CitationFilter

namespace Settings

/-- The lines of a new configuration file. -/
def blankLines : List String :=
  ["// Pancite configuration.",
    "// Every setting is optional. Delete a line to keep its default.",
    "(",
    "    // The citation engine. It is started once per run and talks",
    "    // line-delimited JSON on its standard input and output.",
    "    engine: (",
    "        command: \"citeproc-bridge\",",
    "        args: [],",
    "        // The default locale for the engine.",
    "        lang: \"en-US\",",
    "    ),",
    "",
    "    // Where to find locales-<lang>.xml. None means next to the pancite",
    "    // executable.",
    "    locales_dir: None,",
    "",
    "    // The locales to load.",
    "    locales: [\"en-US\", \"ja-JP\"],",
    "",
    "    // The format of the raw inlines that replace citations.",
    "    raw_format: \"markdown\",",
    ")"]

/-- The text of a new configuration file. -/
def blankText : String := String.join (blankLines.map (· ++ "\n"))

end Settings

end CitationFilter
