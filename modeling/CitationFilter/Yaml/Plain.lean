import CitationFilter.Decimal.Binary64

/-!
# What a scalar stands for

A plain scalar that looks like a null, a truth value or a number is one, and every other scalar is a
text. Integers may be written with the bases two, eight and sixteen; in base ten, digits that start
with a zero are no number.
-/

namespace CitationFilter

namespace Yaml

/-- A number that is not an integer. -/
inductive Real where
  | finite (x : Binary64)
  | infinite (negative : Bool)
  | notANumber
deriving DecidableEq, Repr

/-- What a scalar may stand for. -/
inductive Atom where
  | null
  | bool (b : Bool)
  | int (i : Int)
  | real (x : Real)
  | str (s : String)
deriving DecidableEq, Repr

namespace Atom

/-! ## Words -/

/-- The words for null. -/
def nullWords : List String := ["null", "Null", "NULL", "~"]

/-- The truth value that a word stands for. -/
def bool? (s : String) : Option Bool :=
  if ["true", "True", "TRUE"].contains s then some true
  else if ["false", "False", "FALSE"].contains s then some false
  else none

/-! ## Integers -/

/-- The value of a digit in the bases up to sixteen. -/
def digit? (c : Char) : Option Nat :=
  if c.isDigit then some (c.toNat - '0'.toNat)
  else if 'a' ≤ c ∧ c ≤ 'f' then some (c.toNat - 'a'.toNat + 10)
  else if 'A' ≤ c ∧ c ≤ 'F' then some (c.toNat - 'A'.toNat + 10)
  else none

/-- The number that some digits spell in a base. -/
def inBase? (base : Nat) (cs : List Char) : Option Nat :=
  if cs = [] then none
  else
    cs.foldlM (fun n c ↦ (digit? c).bind fun d ↦ if d < base then some (base * n + d) else none) 0

/-- The magnitude of an integer. -/
def magnitude? : List Char → Option Nat
  | '0' :: 'x' :: rest => inBase? 16 rest
  | '0' :: 'o' :: rest => inBase? 8 rest
  | '0' :: 'b' :: rest => inBase? 2 rest
  | ['0'] => some 0
  | '0' :: _ => none
  | cs => inBase? 10 cs

/-- The integer that a text spells, with a sign or without. -/
def int? : List Char → Option Int
  | '-' :: rest => (magnitude? rest).map fun n ↦ -(n : Int)
  | '+' :: rest => (magnitude? rest).map fun n ↦ (n : Int)
  | cs => (magnitude? cs).map fun n ↦ (n : Int)

/-- Whether an integer can be used: it fits into 64 bits, with a sign or without. -/
def isUsable (i : Int) : Bool := -twoTo 63 ≤ i && i < twoTo 64

/-- Whether an integer is at least recognised as one: it fits into 128 bits. -/
def isRecognised (i : Int) : Bool := -twoTo 127 ≤ i && i < twoTo 128

/-! ## Other numbers -/

/-- The number that some decimal digits spell. -/
def decimal (cs : List Char) : Nat := cs.foldl (fun n c ↦ 10 * n + (c.toNat - '0'.toNat)) 0

/-- Reads an exponent, which may be left out. -/
def exponent? : List Char → Option Int
  | [] => some 0
  | c :: rest =>
    if c = 'e' ∨ c = 'E' then
      let (negative, digits) :=
        match rest with
        | '-' :: digits => (true, digits)
        | '+' :: digits => (false, digits)
        | digits => (false, digits)
      if digits ≠ [] ∧ digits.all Char.isDigit then
        some (if negative then -(decimal digits : Int) else decimal digits)
      else none
    else none

/-- Reads a number in decimal notation without its sign: digits with a point among them, before
them or after them. -/
def unsigned? (negative : Bool) (cs : List Char) : Option Binary64 :=
  let whole := cs.takeWhile Char.isDigit
  let (fraction, rest) :=
    match cs.dropWhile Char.isDigit with
    | '.' :: rest => (rest.takeWhile Char.isDigit, rest.dropWhile Char.isDigit)
    | rest => ([], rest)
  if whole = [] ∧ fraction = [] then none
  else
    (exponent? rest).bind fun e ↦
      Binary64.ofDecimal negative (decimal (whole ++ fraction)) (e - fraction.length)

/-- The words for infinity. -/
def infinityWords : List String := [".inf", ".Inf", ".INF"]

/-- The words for what is not a number. -/
def notANumberWords : List String := [".nan", ".NaN", ".NAN"]

/-- The number that a text spells. One that is too large is none. -/
def real? (s : String) : Option Real :=
  if notANumberWords.contains s then some .notANumber
  else
    match s.toList with
    | '-' :: rest =>
      if infinityWords.contains (String.ofList rest) then some (.infinite true)
      else (unsigned? true rest).map .finite
    | '+' :: rest =>
      if infinityWords.contains (String.ofList rest) then some (.infinite false)
      else (unsigned? false rest).map .finite
    | cs =>
      if infinityWords.contains s then some (.infinite false)
      else (unsigned? false cs).map .finite

/-! ## Scalars -/

/-- Whether a text is made of digits that start with a zero, after a sign or without one. -/
def isZeroPadded : List Char → Bool
  | c :: rest =>
    let digits := if c = '-' ∨ c = '+' then rest else c :: rest
    1 < digits.length && digits.head? = some '0' && digits.all Char.isDigit
  | [] => false

/-- What a number or a text stands for. -/
def ofNumeral (s : String) : Atom :=
  if isZeroPadded s.toList then .str s else (real? s).elim (.str s) .real

/-- What a plain scalar without a tag stands for. An integer that is too large for 64 bits but not
for 128 is an error. -/
def ofPlain? (s : String) : Option Atom :=
  if s = "" ∨ nullWords.contains s then some .null
  else
    match bool? s, int? s.toList with
    | some b, _ => some (.bool b)
    | none, some i =>
      if isUsable i then some (.int i)
      else if isRecognised i then none
      else some (ofNumeral s)
    | none, none => some (ofNumeral s)

/-- The beginning of the tags of the basic types. -/
def coreTag (name : String) : String := "tag:yaml.org,2002:" ++ name

/-- What a scalar with a tag stands for. The tags of the basic types are checked, and under any
other tag a scalar is a text. -/
def ofTagged? (tag s : String) : Option Atom :=
  if tag = coreTag "bool" then (bool? s).map .bool
  else if tag = coreTag "int" then (int? s.toList).bind fun i ↦
    if isUsable i then some (.int i) else none
  else if tag = coreTag "float" then (real? s).map .real
  else if tag = coreTag "null" then (if nullWords.contains s then some .null else none)
  else some (.str s)

end Atom

end Yaml

end CitationFilter
