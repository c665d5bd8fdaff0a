import CitationFilter.Proofs.Text.Pattern

/-!
# Anchored patterns

A plain pattern matches anywhere in a text. An anchored one may also ask for the start or for the
end of the text, and it may ask for a run of characters that is as long as possible. Where the
longest run does not lead to a match, shorter ones are tried. So a run has several ways to match as
well, and `Anchored.rests` goes through all of them in the order of preference, as `Pattern.rests`
does.

A place in a text is given by what is left of the text there. It is the start if as much is left as
there was in the whole.
-/

namespace CitationFilter

/-- A pattern that may be bound to an end of the text. -/
inductive Anchored where
  /-- A pattern that may stand anywhere. -/
  | plain (p : Pattern)
  /-- Nothing, but only at the start of the text. -/
  | start
  /-- Nothing, but only at the end of the text. -/
  | stop
  /-- A run of characters of a class, the longest one preferred. -/
  | many (p : Char → Bool)
  /-- One pattern behind the other. -/
  | seq (first second : Anchored)
  /-- A choice, of which the first is preferred. -/
  | alt (first second : Anchored)

namespace Anchored

/-! ## Matching -/

/-- What is left of a text behind each run of a class at its front, the longest run first. -/
def runs (p : Char → Bool) : List Char → List (List Char)
  | [] => [[]]
  | c :: rest => if p c then runs p rest ++ [c :: rest] else [c :: rest]

/-- What is left behind each way to match at a place, the preferred one first, in a text of that
size. -/
def rests (size : Nat) : Anchored → List Char → List (List Char)
  | plain p, cs => p.rests cs
  | start, cs => if cs.length = size then [cs] else []
  | stop, cs => if cs = [] then [[]] else []
  | many p, cs => runs p cs
  | seq first second, cs => (rests size first cs).flatMap (rests size second)
  | alt first second, cs => rests size first cs ++ rests size second cs

/-- The length of the match at a place, which is nothing if there is no match. -/
def matched (p : Anchored) (size : Nat) (cs : List Char) : Nat :=
  match (p.rests size cs).head? with
  | some left => cs.length - left.length
  | none => 0

/-- Removes the matches from what is left of a text of that size, of which the first `skip`
characters belong to a match before them. -/
def removeAfter (p : Anchored) (size skip : Nat) : List Char → List Char
  | [] => []
  | c :: rest =>
    match skip with
    | k + 1 => removeAfter p size k rest
    | 0 =>
      match p.matched size (c :: rest) with
      | k + 1 => removeAfter p size k rest
      | 0 => c :: removeAfter p size 0 rest

/-- Removes the matches from a text in one pass from left to right. -/
def removeAll (p : Anchored) (cs : List Char) : List Char := p.removeAfter cs.length 0 cs

/-! ## Going on -/

theorem head?_runs (p : Char → Bool) (cs : List Char) :
    (runs p cs).head? = some (cs.dropWhile p) := by
  induction cs with
  | nil => rfl
  | cons c rest ih =>
    rw [runs]
    by_cases hc : p c
    · rw [if_pos hc, List.head?_append, ih, List.dropWhile_cons_of_pos hc, Option.some_or]
    · rw [if_neg hc, List.dropWhile_cons_of_neg hc, List.head?_cons]

variable {p : Anchored} {size : Nat}

theorem removeAfter_eq (p : Anchored) (size skip : Nat) (cs : List Char) :
    p.removeAfter size skip cs = p.removeAfter size 0 (cs.drop skip) := by
  induction cs generalizing skip with
  | nil => rw [List.drop_nil, removeAfter, removeAfter]
  | cons c rest ih =>
    cases skip with
    | zero => rfl
    | succ k => rw [removeAfter, ih, List.drop_succ_cons]

theorem removeAfter_of_rests_eq_nil {c : Char} {rest : List Char}
    (h : p.rests size (c :: rest) = []) :
    p.removeAfter size 0 (c :: rest) = c :: p.removeAfter size 0 rest := by
  have hmatched : p.matched size (c :: rest) = 0 := by rw [matched, h, List.head?_nil]
  rw [removeAfter, hmatched]

/-- Behind a match the rest of the text is gone through. -/
theorem removeAfter_of_head?_rests {cs left : List Char} (h : (p.rests size cs).head? = some left)
    (hleft : left <:+ cs) (hne : left ≠ cs) :
    p.removeAfter size 0 cs = p.removeAfter size 0 left := by
  have hlt : left.length < cs.length :=
    Nat.lt_of_le_of_ne hleft.length_le fun hlength ↦ hne (hleft.eq_of_length hlength)
  have hdrop := List.suffix_iff_eq_drop.mp hleft
  cases cs with
  | nil => exact absurd hlt (Nat.not_lt_zero _)
  | cons c rest =>
    obtain ⟨k, hk⟩ := Nat.exists_eq_succ_of_ne_zero (Nat.sub_ne_zero_of_lt hlt)
    have hmatched : p.matched size (c :: rest) = k + 1 := by rw [matched, h]; exact hk
    rw [hk, List.drop_succ_cons] at hdrop
    rw [removeAfter, hmatched]
    dsimp only
    rw [removeAfter_eq, ← hdrop]

end Anchored

end CitationFilter
