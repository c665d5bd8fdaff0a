import CitationFilter.Error
import CitationFilter.Text.Lines

/-!
# Trees of files

A directory with all that is below it is a tree. A path leads through it from one component to the
next: an empty component and a single dot stay where they are, two dots lead back up, and any other
is the name of an entry. Each component but the first has to be looked up in a directory, so a path
fails at the first component that is missing or that would lead on from a file.

Nothing is known of what is outside the tree. Paths that lead there find directories without
entries.
-/

namespace CitationFilter

/-- A file, or a directory with its entries. -/
inductive FileTree where
  | file (contents : Bytes) (executable : Bool)
  | directory (entries : List (String × FileTree))

namespace FileTree

/-- The directory without entries. -/
def empty : FileTree := .directory []

/-- The names in a directory. -/
def names : FileTree → List String
  | .file .. => []
  | .directory entries => entries.map Prod.fst

/-! ## Following paths -/

/-- The components of a path. -/
def components (path : String) : List String := (path.toList.splitOn '/').map String.ofList

/-- Whether a component stays where it is. -/
def isHere (name : String) : Bool := name = "" || name = "."

/-- The longest name of an entry, in bytes. -/
def longestName : Nat := 255

/-- The longest path, in bytes. -/
def longestPath : Nat := 4095

/-- Follows components from a place, given the directories above it from the nearest on. -/
def follow : List FileTree → FileTree → List String → Except FileError FileTree
  | _, here, [] => .ok here
  | _, .file .., _ :: _ => .error .notDirectory
  | above, .directory entries, name :: rest =>
    if isHere name then follow above (.directory entries) rest
    else if name = ".." then
      match above with
      | [] => follow [] empty rest
      | up :: above => follow above up rest
    else if name.utf8ByteSize > longestName then .error .nameTooLong
    else
      match entries.lookup name with
      | none => .error .notFound
      | some next => follow (.directory entries :: above) next rest

/-- What is at a path. -/
def locate (tree : FileTree) (path : String) : Except FileError FileTree :=
  if path.toList.contains '\x00' then .error .nulInName
  else if path = "" then .error .notFound
  else if path.utf8ByteSize > longestPath then .error .nameTooLong
  else if path.toList.head? = some '/' then follow [] empty (components path)
  else follow [] tree (components path)

/-- The contents of the file at a path. -/
def contents (tree : FileTree) (path : String) : Except FileError Bytes := do
  match ← tree.locate path with
  | .file contents _ => .ok contents
  | .directory _ => .error .isDirectory

/-! ## Putting files in -/

/-- Replaces the entry of a name, or adds it at the end. -/
def setEntry (name : String) (tree : FileTree) :
    List (String × FileTree) → List (String × FileTree)
  | [] => [(name, tree)]
  | entry :: rest =>
    if entry.1 = name then (name, tree) :: rest else entry :: setEntry name tree rest

/-- Puts a tree where names lead, and makes the directories on the way. -/
def put (tree : FileTree) : List String → FileTree → FileTree
  | [], _ => tree
  | name :: rest, .directory entries =>
    .directory (setEntry name (put tree rest ((entries.lookup name).getD empty)) entries)
  | name :: rest, .file .. => .directory [(name, put tree rest empty)]

/-- Writes the file at a path. -/
def write (tree : FileTree) (path : String) (contents : Bytes) (executable : Bool) : FileTree :=
  put (.file contents executable) ((components path).filter fun name ↦ !isHere name) tree

/-- The path of the directory around a path. -/
def outerPath (path : String) : String :=
  match (components path).dropLast with
  | [] => "."
  | outer => String.intercalate "/" (outer ++ ["."])

/-- Whether a file can be written at a path: it is there already, or the directory around it is. -/
def writable (tree : FileTree) (path : String) : Except FileError Unit :=
  match tree.locate path with
  | .ok (.file ..) => .ok ()
  | .ok (.directory _) => .error .isDirectory
  | .error .notFound => do
    match ← tree.locate (outerPath path) with
    | .directory _ => .ok ()
    | .file .. => .error .notDirectory
  | .error cause => .error cause

end FileTree

end CitationFilter
