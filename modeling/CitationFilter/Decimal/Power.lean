/-!
# Powers of two and of ten

The bounds of words and the scales of numerals are powers of these two. They are natural numbers
even where they bound integers.
-/

namespace CitationFilter

/-- The power of two with an exponent. -/
def twoTo (e : Nat) : Nat := Nat.pow 2 e

/-- The power of ten with an exponent. -/
def tenTo (e : Nat) : Nat := Nat.pow 10 e

theorem twoTo_succ (e : Nat) : twoTo (e + 1) = 2 * twoTo e := Nat.mul_comm _ _

theorem tenTo_succ (e : Nat) : tenTo (e + 1) = 10 * tenTo e := Nat.mul_comm _ _

end CitationFilter
