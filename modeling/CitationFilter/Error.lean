import CitationFilter.Json.Shape

/-!
# What can go wrong

Every failure of the filter is one value of `Error`, which names the cause and carries what the
cause is about. No error is recoverable: the first one ends the run, and nothing is written.

The wording is a function of the cause. Two causes have no wording of their own beyond the fact
that a text could not be read at all, because where reading stopped depends on the reader.
-/

namespace CitationFilter

/-- Why a file could not be used, as the operating system reports it. -/
inductive FileError where
  | notFound
  | permissionDenied
  | notExecutable
  | notDirectory
  | isDirectory
  | nameTooLong
  /-- A file name with a NUL character in it. -/
  | nulInName
  /-- A command with a NUL character in it. -/
  | nulInCommand
  /-- The contents are not valid UTF-8. -/
  | invalidText
deriving DecidableEq, Repr

/-- Why the output takes no more, as the operating system reports it. -/
inductive OutputError where
  | noSpace
  | brokenPipe
  /-- Any other cause, in the words of the system. -/
  | other (words : String)
deriving DecidableEq, Repr

/-- Why the exchange with the engine broke. -/
inductive StreamError where
  /-- A line of the engine is not valid UTF-8. -/
  | invalidText
  /-- The engine's input accepts no more. -/
  | inputBroken
deriving DecidableEq, Repr

/-- What is wrong with a document. -/
inductive DocumentFault where
  /-- The text is not JSON, or its top level is not an object. -/
  | unreadable
  /-- The metadata are not an object. -/
  | metadata (fault : Json.ShapeError)
  | blocksNotArray
  | blocksMissing
deriving DecidableEq, Repr

/-- What is wrong with a library. -/
inductive LibraryFault where
  /-- The text is not readable in its format. -/
  | unreadable
  | shape (fault : Json.ShapeError)
deriving DecidableEq, Repr

/-- What is wrong with a citation node. -/
inductive CitationFault where
  | noList
  | shape (fault : Json.ShapeError)
deriving DecidableEq, Repr

/-- How an engine breaks the rules of the conversation. -/
inductive ProtocolFault where
  /-- The answer to a cluster has no text in it. -/
  | noText
  /-- A line that is no message; `isJson` says whether it is JSON at all. -/
  | unreadable (line : String) (isJson : Bool)
  | clusterResult (fault : Json.ShapeError)
  | badIndex (index : Json.Number)
  | badUpdate (values : List Json)
  | bibliography (fault : Json.ShapeError)
deriving Repr

/-- Everything that can end a run. -/
inductive Error where
  | document (fault : DocumentFault)
  | missingMetadata (field : String)
  | io (path : String) (cause : FileError)
  | library (fault : LibraryFault)
  /-- The configuration file cannot be read as settings. -/
  | settings
  | engineSpawn (command : String) (cause : FileError)
  | itemNotFound (id : String)
  | malformedCitation (fault : CitationFault)
  | queueExhausted
  | queueNotDrained (left : Nat)
  | engineProtocol (fault : ProtocolFault)
  /-- A failure that the engine itself reports. -/
  | engine (message : String)
  | engineClosed
  | engineIo (cause : StreamError)
deriving Repr

/-! ## Wording -/

/-- The operating system's words, with its error number where it has one. -/
def FileError.message : FileError → String
  | .notFound => "No such file or directory (os error 2)"
  | .permissionDenied => "Permission denied (os error 13)"
  | .notExecutable => "Exec format error (os error 8)"
  | .notDirectory => "Not a directory (os error 20)"
  | .isDirectory => "Is a directory (os error 21)"
  | .nameTooLong => "File name too long (os error 36)"
  | .nulInName => "file name contained an unexpected NUL byte"
  | .nulInCommand => "nul byte found in provided data"
  | .invalidText => "stream did not contain valid UTF-8"

/-- The operating system's words about the output. -/
def OutputError.message : OutputError → String
  | .noSpace => "No space left on device (os error 28)"
  | .brokenPipe => "Broken pipe (os error 32)"
  | .other words => words

/-- What broke, in words. -/
def StreamError.message : StreamError → String
  | .invalidText => "stream did not contain valid UTF-8"
  | .inputBroken => "engine input broken"

/-- What is wrong with a document, in words. -/
def DocumentFault.message : DocumentFault → String
  | .unreadable => "not a JSON object"
  | .metadata fault => fault.message
  | .blocksNotArray => "`blocks` is not an array"
  | .blocksMissing => (Json.ShapeError.missingField "blocks").message

/-- What is wrong with a library, in words. -/
def LibraryFault.message : LibraryFault → String
  | .unreadable => "not readable in its format"
  | .shape fault => fault.message

/-- What is wrong with a citation node, in words. -/
def CitationFault.message : CitationFault → String
  | .noList => "Cite node without a citation list"
  | .shape fault => fault.message

/-- Which rule an engine broke, in words. -/
def ProtocolFault.message : ProtocolFault → String
  | .noText => "no formatted text for the cluster"
  | .unreadable line isJson =>
    "unreadable message " ++ Text.quoted line ++
      if isJson then " (" ++ (Json.ShapeError.noVariant "Message").message ++ ")" else ""
  | .clusterResult fault => "unexpected cluster result (" ++ fault.message ++ ")"
  | .badIndex index => "bad cluster index " ++ index.text
  | .badUpdate values =>
    "cluster update is not [index, text]: [" ++ Json.describedItems values ++ "]"
  | .bibliography fault => "unexpected bibliography (" ++ fault.message ++ ")"

/-- The message of an error. -/
def Error.message : Error → String
  | .document fault => "error deserializing the Pandoc JSON—" ++ fault.message
  | .missingMetadata field => "the document metadata has no `" ++ field ++ "` field"
  | .io path cause => "error reading the file " ++ path ++ "—" ++ cause.message
  | .library fault => "error deserializing the CSL library—" ++ fault.message
  | .settings => "error deserializing the configuration file—not readable as settings"
  | .engineSpawn command cause =>
    "cannot start the citation engine `" ++ command ++ "`—" ++ cause.message
  | .itemNotFound id => "item with ID \"" ++ id ++ "\" not found in the bibliography"
  | .malformedCitation fault => "malformed citation node—" ++ fault.message
  | .queueExhausted => "ran out of formatted citations while rewriting the document"
  | .queueNotDrained left =>
    toString left ++ " formatted citation(s) left over after rewriting the document"
  | .engineProtocol fault => "citation engine protocol error—" ++ fault.message
  | .engine message => "citation engine error—" ++ message
  | .engineClosed => "the citation engine closed its output"
  | .engineIo cause => "error talking to the citation engine—" ++ cause.message

end CitationFilter
