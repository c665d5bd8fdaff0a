import CitationFilter.Decimal.Binary64

/-!
# The shortest decimal of a binary number

A number of the binary format stands for all reals that round to it, an interval around it. Among
the decimals inside that interval the *shortest* has the fewest digits, and of those it is the one
nearest to the number. Reading it back gives the number again. If two are equally near, the text
format decides between them.

The search is by the number of digits. The decimals with a given number of digits form a grid, and
if any point of a grid lies in the interval then so does one of the two neighbours of the number
on that grid; hence only these two are tried. Seventeen digits always suffice.

How a decimal is laid out (where the positional notation ends, whether a fraction is kept) is a
choice of the text format, so two layouts are given here and the formats choose between them.
-/

namespace CitationFilter

/-- The number `digits · 10 ^ exponent`. -/
structure Decimal where
  /-- All significant digits, read as one natural number. -/
  digits : Nat
  /-- The power of ten by which the last digit counts. -/
  exponent : Int
deriving DecidableEq, Repr

namespace Decimal

/-! ## Layout -/

/-- The characters of the significant digits. -/
def characters (d : Decimal) : List Char := Nat.toDigits 10 d.digits

/-- The exponent in scientific notation: the power of ten of the first digit. -/
def magnitude (d : Decimal) : Int := d.characters.length + d.exponent - 1

/-- Positional notation. A whole number ends in `wholeEnd`. -/
def positional (wholeEnd : List Char) (d : Decimal) : List Char :=
  let cs := d.characters
  let before : Int := cs.length + d.exponent
  if before ≤ 0 then '0' :: '.' :: List.replicate (-before).toNat '0' ++ cs
  else if 0 ≤ d.exponent then cs ++ List.replicate d.exponent.toNat '0' ++ wholeEnd
  else cs.take before.toNat ++ '.' :: cs.drop before.toNat

/-- Scientific notation: one digit before the point, and an exponent that always has a sign. -/
def scientific (d : Decimal) : List Char :=
  let power := 'e' :: (if d.magnitude < 0 then '-' else '+') :: Nat.toDigits 10 d.magnitude.natAbs
  match d.characters with
  | [] => power
  | [c] => c :: power
  | c :: more => c :: '.' :: more ++ power

/-- Drops trailing zeros from the digits; `fuel` bounds their number. -/
def stripZeros : Nat → Decimal → Decimal
  | 0, d => d
  | fuel + 1, d =>
    if d.digits ≠ 0 ∧ d.digits % 10 = 0 then stripZeros fuel ⟨d.digits / 10, d.exponent + 1⟩ else d

end Decimal

namespace Binary64

/-! ## The interval of a number -/

/-- Four times the magnitude of the number and the ends of its interval, as multiples of
`2 ^ (exponent - 2)`. Below a power of two the numbers lie twice as close. -/
def interval (x : Binary64) : Nat × Nat × Nat :=
  let below := if x.mantissa = twoTo 52 ∧ leastExponent < x.exponent then 1 else 2
  (4 * x.mantissa, 4 * x.mantissa - below, 4 * x.mantissa + 2)

/-- Two ratios brought to one denominator: `quarters · 2 ^ (exponent - 2)` and
`digits · 10 ^ e`. -/
def compared (x : Binary64) (quarters : Nat) (d : Decimal) : Nat × Nat :=
  let two := x.exponent - 2
  (quarters * twoTo two.toNat * tenTo (-d.exponent).toNat,
    d.digits * tenTo d.exponent.toNat * twoTo (-two).toNat)

/-- Whether a decimal rounds to the number: it lies inside the interval, or on one of its ends if
the mantissa is even. -/
def roundsTo (x : Binary64) (d : Decimal) : Bool :=
  let (_, low, high) := x.interval
  let (l, c) := x.compared low d
  let (h, c') := x.compared high d
  if x.mantissa % 2 = 0 then l ≤ c && c' ≤ h else l < c && c' < h

/-- The distance from the number to a decimal, over a denominator that only depends on the
exponents. -/
def distance (x : Binary64) (d : Decimal) : Nat :=
  let (v, c) := x.compared x.interval.1 d
  (v - c) + (c - v)

/-! ## The search -/

/-- Which of two neighbouring decimals is taken if both are equally near. -/
inductive Tie where
  /-- The one with an even last digit. -/
  | toEven
  /-- The greater one. -/
  | up
deriving DecidableEq, Repr

/-- Whether a tie goes to the upper neighbour, given the lower one. -/
def Tie.goesUp (tie : Tie) (low : Decimal) : Bool :=
  match tie with
  | .toEven => low.digits % 2 = 1
  | .up => true

/-- The power of ten of the first digit of a positive ratio. -/
def leadingPower (num den : Nat) : Int :=
  if den ≤ num then (Nat.toDigits 10 (num / den)).length - 1
  else
    let places := (Nat.toDigits 10 (den / num)).length
    if den ≤ num * tenTo (places - 1) then -((places - 1 : Nat) : Int) else -(places : Int)

/-- The neighbour below the number on the grid of the decimals with exponent `e`. -/
def floorAt (x : Binary64) (e : Int) : Decimal :=
  let (num, den) := x.ratio
  ⟨num * tenTo (-e).toNat / (den * tenTo e.toNat), e⟩

/-- Whether the upper one of two neighbours is the better one. -/
def prefersHigh (tie : Tie) (x : Binary64) (low high : Decimal) : Bool :=
  let (below, above) := (x.distance low, x.distance high)
  above < below || (above = below && tie.goesUp low)

/-- The better one of the two neighbours with exponent `e` that round to the number. -/
def shortestAt (tie : Tie) (x : Binary64) (e : Int) : Option Decimal :=
  let low := x.floorAt e
  let high : Decimal := ⟨low.digits + 1, e⟩
  match x.roundsTo low, x.roundsTo high with
  | true, true => some (if prefersHigh tie x low high then high else low)
  | true, false => some low
  | false, true => some high
  | false, false => none

/-- The shortest decimal that rounds to the number, without its sign. -/
def shortest (x : Binary64) (tie : Tie) : Decimal :=
  if x.isZero then ⟨0, 0⟩
  else
    let first := leadingPower x.ratio.1 x.ratio.2
    match (List.range 17).findSome? fun (n : Nat) ↦ shortestAt tie x (first - n) with
    | some d => d.stripZeros 400
    | none => x.floorAt (first - 16)

end Binary64

end CitationFilter
