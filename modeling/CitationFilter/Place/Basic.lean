import CitationFilter.CommandLine.Basic
import CitationFilter.Place.Script

/-!
# Places

A place is a tree of files in which the filter runs, with the engines that its commands start and
with an output that takes everything. It answers what a run asks of its surroundings, and it is
changed by a run in two ways: by the files that the program writes, and by what an engine keeps of
the exchange.
-/

namespace CitationFilter

namespace FileTree

/-- What a run finds in a tree, given the directory of the program. -/
def surroundings (tree : FileTree) (programDir : String) : Surroundings where
  contents := tree.contents
  writable := tree.writable
  speech command args := (Script.start tree command args).map (Script.speech tree)
  output _ := .whole
  programDir := programDir

/-- What an exchange leaves in a tree. -/
def keep (tree : FileTree) (exchange : Exchange) : FileTree :=
  match (Script.start tree exchange.command exchange.args).map Script.keeper? with
  | .ok (some path) =>
    tree.write path (Bytes.ofText (String.join (exchange.sent.map (· ++ "\n")))) false
  | _ => tree

/-- What an exchange leaves in a tree, if there was one. -/
def keepAll (tree : FileTree) (exchange : Option Exchange) : FileTree :=
  exchange.elim tree tree.keep

/-- The tree after a run of the filter. -/
def afterRun (tree : FileTree) (run : Run) : FileTree := tree.keepAll run.exchange

/-- The tree after the program has ended. -/
def afterProgram (tree : FileTree) (ending : Ending) : FileTree :=
  (ending.written.foldl (fun tree f ↦ tree.write f.1 f.2 false) tree).keepAll ending.exchange

/-- The names that are in a tree but were not in an earlier one, in order. -/
def newNames (tree earlier : FileTree) : List String :=
  (tree.names.filter fun name ↦ !earlier.names.contains name).mergeSort fun a b ↦ a ≤ b

end FileTree

end CitationFilter
