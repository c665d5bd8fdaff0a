/-!
# Blank characters and trimming

A character is *blank* when it has the Unicode property `White_Space`. This is the one notion of
white space that the citation texts, the locators and the lines of a conversation share, so
trimming is defined here once, over lists of characters, and lifted to strings.
-/

namespace CitationFilter

namespace Text

/-- The characters with the property `White_Space`, as inclusive ranges of code points. -/
def blankRanges : List (Nat × Nat) :=
  [(0x09, 0x0D), (0x20, 0x20), (0x85, 0x85), (0xA0, 0xA0), (0x1680, 0x1680), (0x2000, 0x200A),
    (0x2028, 0x2029), (0x202F, 0x202F), (0x205F, 0x205F), (0x3000, 0x3000)]

/-- Whether a character is white space. -/
def isBlank (c : Char) : Bool :=
  blankRanges.any fun r ↦ r.1 ≤ c.toNat && c.toNat ≤ r.2

/-- Drops the blanks at the front. -/
def trimFront (cs : List Char) : List Char := cs.dropWhile isBlank

/-- Drops the blanks at the back. -/
def trimBack (cs : List Char) : List Char := (cs.reverse.dropWhile isBlank).reverse

/-- Drops the blanks at both ends. -/
def trimmed (cs : List Char) : List Char := trimBack (trimFront cs)

/-- Drops the blanks at both ends of a string. -/
def trim (s : String) : String := String.ofList (trimmed s.toList)

/-- Whether a string holds nothing but blanks. -/
def allBlank (s : String) : Bool := s.toList.all isBlank

@[simp] theorem trimmed_nil : trimmed [] = [] := rfl

/-- The ASCII blanks of the core library are blanks here too. -/
theorem isBlank_of_isWhitespace {c : Char} (h : c.isWhitespace) : isBlank c := by
  simp only [Char.isWhitespace, Bool.or_eq_true, decide_eq_true_eq] at h
  rcases h with ((h | h) | h) | h <;> subst h <;> decide

end Text

end CitationFilter
