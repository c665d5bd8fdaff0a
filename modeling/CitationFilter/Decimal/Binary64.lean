import CitationFilter.Decimal.Power

/-!
# Binary numbers of 64 bits

The finite numbers of the 64-bit binary format, kept as what they mean: a sign, a mantissa and an
exponent of two. Keeping the meaning instead of the bit pattern makes every operation exact
arithmetic on natural numbers followed by one rounding, so the digits that are read and written
can be computed, and reasoned about, without any machine arithmetic.

Rounding goes to the nearest number of the format, and a tie goes to the even mantissa. A result
that is too large for the format is reported by `none`; there are no infinities here.
-/

namespace CitationFilter

/-- The finite number `± mantissa · 2 ^ exponent` of the 64-bit binary format. -/
structure Binary64 where
  /-- Whether the sign is minus; zero has a sign as well. -/
  negative : Bool
  /-- Below `2 ^ 53`, and at least `2 ^ 52` unless the exponent is the least one. -/
  mantissa : Nat
  /-- From `-1074` to `971`. -/
  exponent : Int
deriving DecidableEq, Repr

namespace Binary64

/-- The least exponent. -/
def leastExponent : Int := -1074

/-- The greatest exponent. -/
def greatestExponent : Int := 971

/-- The zero of a sign. -/
def zero (negative : Bool) : Binary64 := ⟨negative, 0, leastExponent⟩

/-- Whether the number is one of the two zeros. -/
def isZero (x : Binary64) : Bool := x.mantissa = 0

/-- The number with the other sign. -/
def neg (x : Binary64) : Binary64 := { x with negative := !x.negative }

/-! ## Rounding -/

/-- The quotient rounded to the nearest natural number, a tie to the even one. -/
def divideToEven (num den : Nat) : Nat :=
  let q := num / den
  let r := num % den
  if 2 * r < den then q else if den < 2 * r then q + 1 else q + q % 2

/-- The ratio `num / den` over `2 ^ e`, again as a ratio. -/
def inUnits (num den : Nat) (e : Int) : Nat × Nat :=
  (num * twoTo (-e).toNat, den * twoTo e.toNat)

/-- The exponent at which `num / den` has a mantissa of 53 bits, or the least exponent. -/
def exponentOf (num den : Nat) : Int :=
  let low := max leastExponent ((num.log2 : Int) - den.log2 - 53)
  let (n, d) := inUnits num den low
  if n / d < twoTo 53 then low else low + 1

/-- The number nearest to `± num / den`, if it is not too large. -/
def nearest (negative : Bool) (num den : Nat) : Option Binary64 :=
  if num = 0 then some (zero negative)
  else
    let e := exponentOf num den
    let (n, d) := inUnits num den e
    let m := divideToEven n d
    let (m, e) := if m = twoTo 53 then (twoTo 52, e + 1) else (m, e)
    if greatestExponent < e then none else some ⟨negative, m, e⟩

/-! ## Arithmetic -/

/-- The magnitude as a ratio of natural numbers. -/
def ratio (x : Binary64) : Nat × Nat :=
  (x.mantissa * twoTo x.exponent.toNat, twoTo (-x.exponent).toNat)

/-- The number nearest to a natural number. -/
def ofNat (n : Nat) : Option Binary64 := nearest false n 1

/-- The rounded product. -/
def mul (x y : Binary64) : Option Binary64 :=
  nearest (x.negative != y.negative) (x.ratio.1 * y.ratio.1) (x.ratio.2 * y.ratio.2)

/-- The rounded quotient; the divisor is not to be zero. -/
def div (x y : Binary64) : Option Binary64 :=
  nearest (x.negative != y.negative) (x.ratio.1 * y.ratio.2) (x.ratio.2 * y.ratio.1)

/-- The number nearest to `10 ^ e`, which exists for `e` up to 308. -/
def powerOfTen (e : Nat) : Option Binary64 := ofNat (tenTo e)

/-- The number nearest to `± digits · 10 ^ e`. An exponent that leaves the format on either side
is decided by the number of digits, before any power is computed. -/
def ofDecimal (negative : Bool) (digits : Nat) (e : Int) : Option Binary64 :=
  let size : Int := (Nat.toDigits 10 digits).length
  if digits = 0 then some (zero negative)
  else if e + size < -400 then some (zero negative)
  else if 400 < e + size then none
  else if e < 0 then nearest negative digits (tenTo (-e).toNat)
  else nearest negative (digits * tenTo e.toNat) 1

end Binary64

end CitationFilter
