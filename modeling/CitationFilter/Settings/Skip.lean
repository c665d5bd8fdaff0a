import CitationFilter.Settings.Notation

/-!
# Skipping values

A field that is not known is skipped, whatever its value is. So this file knows the whole notation,
also the parts that the settings themselves do not use: tuples, mappings, numbers, characters.

Values may be nested only so deep. A collection counts as one level and a part of it as another.
-/

namespace CitationFilter

namespace Settings

namespace Reader

/-- The words that are values by themselves. -/
def valueWords : List String := ["true", "false", "None", "inf", "-inf", "NaN"]

/-- Skips one of some words if it is next. -/
def acceptAny : List String → Reader Bool
  | [] => return false
  | word :: words => do
    if ← acceptKeyword word then return true else acceptAny words

/-- Whether parentheses that have just been opened are around fields. -/
def atFields : Reader Bool := do
  let cs ← get
  match (do let _ ← name; space; accept ":" : Reader Bool).run cs with
  | some (found, _) => return found
  | none => return false

/-- Skips what is between parentheses, fields or other parts, and the closing one. -/
def skipParenthesised (part : Reader Unit) : Reader Unit := do
  space
  if ← atFields then discard (parts ')' (field part fun _ ↦ part))
  else discard (parts ')' part)

/-- Skips an optional value after its word has been recognised. -/
def skipSome (implicitSome : Bool) (value : Reader Unit) : Reader Unit := do
  expect "Some"
  space
  if ← accept "(" then
    space
    value
    let _ ← comma
    expect ")"
  else if implicitSome then value
  else failure

/-- Skips a value. `within` skips a value one level down, and `part` a part of a collection; without
`within` the value is nested too deep to hold any other. -/
def skipWith (implicitSome : Bool) (within : Option (Reader Unit)) (part : Reader Unit) :
    Reader Unit := do
  let nested (skip : Reader Unit → Reader Unit) (inner : Reader Unit) : Reader Unit :=
    if within.isSome then skip inner else failure
  if ← acceptAny valueWords then return ()
  else if ← isKeyword "Some" then skipSome implicitSome (within.getD failure)
  else if ← accept "()" then return ()
  else
    match ← (some <$> name) <|> pure none with
    | some _ =>
      space
      if ← accept "(" then nested skipParenthesised part else return ()
    | none =>
      match ← next? with
      | some '(' => expect "("; nested skipParenthesised part
      | some '[' => expect "["; nested (fun p ↦ discard (parts ']' p)) part
      | some '{' => expect "\x7b"; nested (fun p ↦ discard (parts '}' (field p fun _ ↦ p))) part
      | some '"' => discard text
      | some 'r' => discard text
      | some '\'' => skipCharacter
      | some '.' => skipFloat
      | some c => if c.isDigit || c = '+' || c = '-' then skipNumber else failure
      | none => failure

/-- Skips a value that may be nested only so deep. -/
def skipWithin (implicitSome : Bool) : Nat → Reader Unit
  | 0 => skipWith implicitSome none failure
  | 1 => skipWith implicitSome (some (skipWithin implicitSome 0)) failure
  | depth + 2 =>
    skipWith implicitSome (some (skipWithin implicitSome (depth + 1)))
      (skipWithin implicitSome depth)

end Reader

end Settings

end CitationFilter
