import CitationFilter.Decimal.Shortest
import CitationFilter.Json.Basic

/-!
# The text of a number

Writing a binary number uses its shortest decimal. Reading one does not search for the nearest
binary number: the digits are gathered into a significand of at most 64 bits, further digits only
count towards the exponent, and the significand is then scaled by a power of ten, with a rounding
after each step. This is what the exchanged texts mean, so the steps are spelled out here.
-/

namespace CitationFilter

namespace Json.Number

/-! ## Writing -/

/-- Binary numbers are written positionally when the power of ten of the first digit is at least
this. -/
def leastPositional : Int := -5

/-- Binary numbers are written positionally when the power of ten of the first digit is at most
this. -/
def greatestPositional : Int := 15

/-- The text of a binary number: positional for moderate magnitudes and then always with a
fraction, otherwise scientific. -/
def floatChars (x : Binary64) : List Char :=
  let d := x.shortest .toEven
  let plain := leastPositional ≤ d.magnitude ∧ d.magnitude ≤ greatestPositional
  (if x.negative then ['-'] else []) ++
    if plain then d.positional ['.', '0'] else d.scientific

/-- The text of an integer. -/
def intChars (i : Int) : List Char :=
  (if i < 0 then ['-'] else []) ++ Nat.toDigits 10 i.natAbs

/-- The text of a number. -/
def chars : Number → List Char
  | .int i => intChars i
  | .float x => floatChars x

/-! ## The parts of a numeral -/

/-- A number as it is written: a sign, digits before and after the point, and an exponent. -/
structure Numeral where
  /-- Whether a minus stands in front. -/
  negative : Bool
  /-- The digits before the point. -/
  whole : List Char
  /-- The digits after the point; without a point there are none. -/
  fraction : List Char
  /-- The exponent, if there is one. -/
  exponent : Option Int
deriving DecidableEq, Repr

/-- The value of a digit. -/
def digitValue (c : Char) : Nat := c.toNat - '0'.toNat

/-- The number that some digits spell. -/
def digitsValue (cs : List Char) : Nat := cs.foldl (fun n c ↦ 10 * n + digitValue c) 0

/-- Reads an exponent after its letter. -/
def exponent? (cs : List Char) : Option Int :=
  let (negative, digits) :=
    match cs with
    | '-' :: rest => (true, rest)
    | '+' :: rest => (false, rest)
    | rest => (false, rest)
  if digits ≠ [] ∧ digits.all Char.isDigit then
    some (if negative then -(digitsValue digits : Int) else digitsValue digits)
  else none

/-- Reads what follows the digits before the point. -/
def fractionAndExponent? (cs : List Char) : Option (List Char × Option Int) :=
  let (fraction, rest, pointed) :=
    match cs with
    | '.' :: rest => (rest.takeWhile Char.isDigit, rest.dropWhile Char.isDigit, true)
    | rest => ([], rest, false)
  if pointed ∧ fraction = [] then none
  else
    match rest with
    | [] => some (fraction, none)
    | c :: rest =>
      if c = 'e' ∨ c = 'E' then (exponent? rest).map fun e ↦ (fraction, some e) else none

/-- Reads a numeral. The digits before the point do not start with a zero unless that is all. -/
def numeral? (cs : List Char) : Option Numeral :=
  let (negative, rest) :=
    match cs with
    | '-' :: rest => (true, rest)
    | rest => (false, rest)
  let whole := rest.takeWhile Char.isDigit
  if whole = [] ∨ (whole.head? = some '0' ∧ whole ≠ ['0']) then none
  else
    (fractionAndExponent? (rest.dropWhile Char.isDigit)).map fun (fraction, exponent) ↦
      ⟨negative, whole, fraction, exponent⟩

/-! ## The value of a numeral -/

/-- The greatest significand. -/
def greatestSignificand : Nat := twoTo 64 - 1

/-- Appends digits to a significand while it stays small enough; the digits left over start with
the first one that does not fit. -/
def absorb (significand : Nat) : List Char → Nat × List Char
  | [] => (significand, [])
  | c :: rest =>
    let next := 10 * significand + digitValue c
    if next ≤ greatestSignificand then absorb next rest else (significand, c :: rest)

/-- Divides by `10 ^ e`, by at most `10 ^ 308` in one step. -/
def divideByTen (x : Binary64) (e : Nat) : Option Binary64 :=
  if e ≤ 308 then (Binary64.powerOfTen e).bind x.div
  else if x.isZero then some x
  else (Binary64.powerOfTen 308).bind x.div |>.bind fun y ↦ divideByTen y (e - 308)
termination_by e
decreasing_by omega

/-- The significand times `10 ^ e`, each step rounded; `none` if it gets too large. -/
def scaled (significand : Nat) (e : Int) : Option Binary64 :=
  (Binary64.ofNat significand).bind fun x ↦
    if e < 0 then divideByTen x (-e).toNat
    else if e ≤ 308 then (Binary64.powerOfTen e.toNat).bind x.mul
    else if x.isZero then some x
    else none

/-- The value of a numeral: an integer if it is written as one and fits, otherwise a binary number.
A negative zero is not an integer. -/
def ofNumeral? (n : Numeral) : Option Number :=
  let (whole, unread) := absorb 0 n.whole
  let float (significand : Nat) (e : Int) : Option Number :=
    (scaled significand e).map fun x ↦ .float (if n.negative then x.neg else x)
  if n.fraction = [] ∧ n.exponent = none ∧ unread = [] then
    if !n.negative then some (.int whole)
    else if 1 ≤ whole ∧ whole ≤ twoTo 63 then some (.int (-whole))
    else float whole 0
  else
    let (significand, unread') := absorb whole n.fraction
    let places : Int := n.fraction.length - unread'.length
    float significand (unread.length - places + n.exponent.getD 0)

/-- Reads the text of a number. -/
def ofChars? (cs : List Char) : Option Number := (numeral? cs).bind ofNumeral?

end Json.Number

end CitationFilter
