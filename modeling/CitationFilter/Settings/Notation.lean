import CitationFilter.Decimal.Power

/-!
# The notation of settings

The settings are written as a record with named fields: parentheses around the fields, a colon after
each name, commas between, square brackets around lists, and comments anywhere. This file reads the
smallest parts: space, names, texts and numbers.

A reader consumes characters from the front of the text and may fail; `r <|> s` tries `s` where `r`
started.
-/

namespace CitationFilter

namespace Settings

/-- Reads from the front of a text. -/
abbrev Reader (α : Type) := StateT (List Char) Option α

namespace Reader

/-! ## Space -/

/-- Where in a comment a reader is; block comments nest. -/
inductive Comment where
  | none
  | line
  | block (depth : Nat)
deriving DecidableEq, Repr

/-- Whether a character is space. -/
def isSpace (c : Char) : Bool := c = ' ' || c = '\t' || c = '\n' || c = '\r'

/-- Drops space and comments. A comment that does not end is an error, and so is a lone slash. -/
def withoutSpace? : Comment → List Char → Option (List Char)
  | .block _, [] => none
  | _, [] => some []
  | .none, '/' :: '/' :: rest => withoutSpace? .line rest
  | .none, '/' :: '*' :: rest => withoutSpace? (.block 1) rest
  | .none, c :: rest =>
    if isSpace c then withoutSpace? .none rest
    else if c = '/' then none
    else some (c :: rest)
  | .line, c :: rest => withoutSpace? (if c = '\n' then .none else .line) rest
  | .block depth, '/' :: '*' :: rest => withoutSpace? (.block (depth + 1)) rest
  | .block depth, '*' :: '/' :: rest =>
    withoutSpace? (if depth ≤ 1 then .none else .block (depth - 1)) rest
  | .block depth, _ :: rest => withoutSpace? (.block depth) rest

/-- Skips space and comments. -/
def space : Reader Unit := do
  match withoutSpace? .none (← get) with
  | some rest => set rest
  | none => failure

/-! ## Characters and words -/

/-- The next character. -/
def next? : Reader (Option Char) := return (← get).head?

/-- Skips a word if it is next. -/
def accept (word : String) : Reader Bool := do
  let cs ← get
  if word.toList.isPrefixOf cs then
    set (cs.drop word.length)
    return true
  else return false

/-- Skips a word, which has to be next. -/
def expect (word : String) : Reader Unit := do
  unless ← accept word do failure

/-- Skips a word and the space after it. -/
def expectSpaced (word : String) : Reader Unit := do
  expect word
  space

/-- Skips a comma with the space around it, if there is one. -/
def comma : Reader Bool := do
  space
  let found ← accept ","
  if found then space
  return found

/-! ## Names -/

/-- Whether a name may start with a character. -/
def isNameStart (c : Char) : Bool := c.isAlpha || c = '_'

/-- Whether a character may be part of a name. -/
def isNameChar (c : Char) : Bool := c.isAlphanum || c = '_'

/-- Whether a character may be part of a raw name. -/
def isRawNameChar (c : Char) : Bool := isNameChar c || c = '.' || c = '+' || c = '-'

/-- Cuts off a name. A name that would go on as a raw one is an error. -/
def cutName? (cs : List Char) : Option (List Char × List Char) :=
  let name := cs.takeWhile isNameChar
  let rest := cs.dropWhile isNameChar
  if rest.head?.any isRawNameChar then none else some (name, rest)

/-- Cuts off a name, which may be raw: then `r#` stands before it. -/
def cutAnyName? : List Char → Option (List Char × List Char)
  | [] => none
  | ['r'] => none
  | 'r' :: '"' :: _ => none
  | 'r' :: '#' :: rest =>
    if rest.head?.any isRawNameChar then
      some (rest.takeWhile isRawNameChar, rest.dropWhile isRawNameChar)
    else none
  | c :: rest => if isNameStart c then cutName? (c :: rest) else none

/-- Reads a name. -/
def name : Reader String := do
  match cutAnyName? (← get) with
  | some (name, rest) =>
    set rest
    return String.ofList name
  | none => failure

/-- Whether a name could go on here. -/
def atNameChar : Reader Bool := return (← get).head?.any isNameChar

/-- Whether a name with this spelling is next. -/
def isKeyword (word : String) : Reader Bool := do
  let cs ← get
  return word.toList.isPrefixOf cs && !(cs.drop word.length).head?.any isNameChar

/-- Skips a name with this spelling if it is next. -/
def acceptKeyword (word : String) : Reader Bool := do
  if ← isKeyword word then accept word else return false

/-! ## Texts -/

/-- What a reader of a quoted text is in the middle of. -/
inductive Escape where
  | none
  /-- After a backslash. -/
  | started
  /-- After a backslash and an x, with so many digits missing. -/
  | byte (missing value : Nat)
  /-- After a backslash and a u. -/
  | opening
  /-- Between braces, after so many digits. -/
  | code (digits value : Nat)
deriving DecidableEq, Repr

/-- The characters with an escape of one letter. -/
def escapes : List (Char × Char) :=
  [('\'', '\''), ('"', '"'), ('\\', '\\'), ('n', '\n'), ('r', '\r'), ('t', '\t'), ('0', '\x00')]

/-- The value of a hexadecimal digit. -/
def hexValue? (c : Char) : Option Nat :=
  if c.isDigit then some (c.toNat - '0'.toNat)
  else if 'a' ≤ c ∧ c ≤ 'f' then some (c.toNat - 'a'.toNat + 10)
  else if 'A' ≤ c ∧ c ≤ 'F' then some (c.toNat - 'A'.toNat + 10)
  else none

/-- How many digits a code may have. -/
def longestCode : Nat := 6

/-- Reads a quoted text after the first quote; what has been read is in `text` in reverse. -/
def quoted? (close : Char) (text : List Char) (escape : Escape) :
    List Char → Option (List Char × List Char)
  | [] => none
  | c :: rest =>
    match escape with
    | .none =>
      if c = close then some (text.reverse, rest)
      else if c = '\\' then quoted? close text .started rest
      else quoted? close (c :: text) .none rest
    | .started =>
      if c = 'x' then quoted? close text (.byte 2 0) rest
      else if c = 'u' then quoted? close text .opening rest
      else
        match escapes.lookup c with
        | some e => quoted? close (e :: text) .none rest
        | none => none
    | .byte missing value =>
      match hexValue? c with
      | none => none
      | some d =>
        let value := 16 * value + d
        if missing ≤ 1 then quoted? close (Char.ofNat value :: text) .none rest
        else quoted? close text (.byte (missing - 1) value) rest
    | .opening => if c = '{' then quoted? close text (.code 0 0) rest else none
    | .code digits value =>
      if c = '}' then
        if h : digits ≠ 0 ∧ value.isValidChar then
          quoted? close (Char.ofNatAux value h.2 :: text) .none rest
        else none
      else if longestCode ≤ digits then none
      else
        match hexValue? c with
        | none => none
        | some d => quoted? close text (.code (digits + 1) (16 * value + d)) rest

/-- Reads a raw text after the first quote, up to a quote with so many hashes. -/
def rawQuoted? (hashes : Nat) (text : List Char) : List Char → Option (List Char × List Char)
  | [] => none
  | c :: rest =>
    if c = '"' ∧ (List.replicate hashes '#').isPrefixOf rest then
      some (text.reverse, rest.drop hashes)
    else rawQuoted? hashes (c :: text) rest

/-- Reads a text, which may be raw: then nothing in it is escaped. -/
def text : Reader String := do
  match ← get with
  | '"' :: rest => finish (quoted? '"' [] .none rest)
  | 'r' :: rest =>
    let hashes := (rest.takeWhile (· = '#')).length
    match rest.drop hashes with
    | '"' :: rest => finish (rawQuoted? hashes [] rest)
    | _ => failure
  | _ => failure
where
  /-- Goes on after the text. -/
  finish : Option (List Char × List Char) → Reader String
    | some (text, rest) => do
      set rest
      return String.ofList text
    | none => failure

/-- Skips a single character between quotes. -/
def skipCharacter : Reader Unit := do
  match ← get with
  | '\'' :: rest =>
    match quoted? '\'' [] .none rest with
    | some ([_], rest) => set rest
    | _ => failure
  | _ => failure

/-! ## Numbers -/

/-- Whether a character may be part of an integer in some base. -/
def isIntegerChar (c : Char) : Bool := (hexValue? c).isSome || c = '_'

/-- Whether a character may be part of a number that is not an integer. -/
def isFloatChar (c : Char) : Bool :=
  c.isDigit || c = '.' || c = 'e' || c = 'E' || c = '+' || c = '-' || c = '_'

/-- The base of an integer and its digits. -/
def baseAndDigits : List Char → Nat × List Char
  | '0' :: 'x' :: rest => (16, rest)
  | '0' :: 'b' :: rest => (2, rest)
  | '0' :: 'o' :: rest => (8, rest)
  | cs => (10, cs)

/-- The number that some digits spell; underscores between them do not count. -/
def digitsValue? (base : Nat) (cs : List Char) : Option Nat :=
  (cs.filter (· ≠ '_')).foldlM
    (fun n c ↦ (hexValue? c).bind fun d ↦ if d < base then some (base * n + d) else none) 0

/-- The greatest magnitude of an integer with a sign or without one. -/
def greatestMagnitude (sign : Option Char) : Nat :=
  if sign = some '-' then twoTo 63 else if sign = some '+' then twoTo 63 - 1 else twoTo 64 - 1

/-- The sign at the front of a number, and the rest. -/
def signed : List Char → Option Char × List Char
  | '-' :: rest => (some '-', rest)
  | '+' :: rest => (some '+', rest)
  | cs => (none, cs)

/-- Skips an integer that fits into 64 bits. -/
def skipInteger : Reader Unit := do
  let (sign, cs) := signed (← get)
  let (base, cs) := baseAndDigits cs
  let digits := cs.takeWhile isIntegerChar
  if digits = [] ∨ digits.head? = some '_' then failure
  else
    match digitsValue? base digits with
    | some n => if n ≤ greatestMagnitude sign then set (cs.dropWhile isIntegerChar) else failure
    | none => failure

/-- Whether some characters spell an exponent, or nothing. -/
def isExponent : List Char → Bool
  | [] => true
  | c :: rest =>
    let digits := (signed rest).2
    (c = 'e' || c = 'E') && digits ≠ [] && digits.all Char.isDigit

/-- Whether some characters spell a number. -/
def isFloat (cs : List Char) : Bool :=
  let cs := (signed cs).2
  let whole := cs.takeWhile Char.isDigit
  match cs.dropWhile Char.isDigit with
  | '.' :: rest =>
    (whole ≠ [] || rest.head?.any Char.isDigit) && isExponent (rest.dropWhile Char.isDigit)
  | rest => whole ≠ [] && isExponent rest

/-- Skips a number of any size. -/
def skipFloat : Reader Unit := do
  let cs ← get
  if isFloat (cs.takeWhile isFloatChar) then set (cs.dropWhile isFloatChar) else failure

/-- Whether the characters that may belong to a number are more than those of an integer. -/
def looksLikeFloat (cs : List Char) : Bool :=
  let cs := (signed cs).2
  (cs.takeWhile isIntegerChar).length < (cs.takeWhile isFloatChar).length

/-- Skips a number. -/
def skipNumber : Reader Unit := do
  if looksLikeFloat (← get) then skipFloat else skipInteger <|> skipFloat

/-! ## Sequences -/

/-- Reads the parts of a sequence up to a closing character: with commas between, and perhaps after
the last. `separated` says that a part may come next; there are fewer than `fuel` parts. -/
def partsWithin {α : Type} (close : Char) (part : Reader α) : Nat → Bool → Reader (List α)
  | 0, _ => failure
  | fuel + 1, separated => do
    space
    match ← next? with
    | none => failure
    | some c =>
      if c = close then return []
      else if !separated then failure
      else
        let a ← part
        let separated ← comma
        return a :: (← partsWithin close part fuel separated)

/-- Reads the parts of a sequence and the closing character. Every part takes a character. -/
def parts {α : Type} (close : Char) (part : Reader α) : Reader (List α) := do
  let parts ← partsWithin close part ((← get).length + 1) true
  space
  expect close.toString
  return parts

/-- Reads a field: a key, a colon and a value. -/
def field {α β : Type} (key : Reader α) (value : α → Reader β) : Reader β := do
  let k ← key
  space
  expect ":"
  space
  value k

end Reader

end Settings

end CitationFilter
