import Mathlib.Data.List.Basic

/-!
# Patterns

A pattern says which texts to look for. It is nothing at all, a character, two patterns one behind
the other, or a choice between two patterns. The first one of a choice is preferred, and the second
one only counts where the first does not lead to a match. `Pattern.rests` goes through the ways to
match in this order, as a search that backtracks does.

Without repetition a pattern stands for finitely many words, and a match is a word that the text
begins with. So the match that counts is the first such word (`Pattern.match?_eq_find?`), and what
there is to know about a pattern can be read off the list of its words.
-/

namespace CitationFilter

/-- A pattern of texts, without repetition. -/
inductive Pattern where
  | empty
  | char (c : Char)
  /-- One pattern behind the other. -/
  | seq (first second : Pattern)
  /-- A choice, of which the first is preferred. -/
  | alt (first second : Pattern)
deriving DecidableEq, Repr

namespace Pattern

/-- The pattern of a single text. -/
def text (s : String) : Pattern := s.toList.foldr (fun c rest ↦ seq (char c) rest) empty

/-- A pattern that may be missing, but is preferred. -/
def optional (p : Pattern) : Pattern := alt p empty

/-! ## Matching -/

/-- What is left of a text behind each way to match its front, the preferred one first. -/
def rests : Pattern → List Char → List (List Char)
  | empty, cs => [cs]
  | char _, [] => []
  | char c, d :: rest => if c = d then [rest] else []
  | seq first second, cs => (rests first cs).flatMap (rests second)
  | alt first second, cs => rests first cs ++ rests second cs

/-- The match at the front of a text. -/
def match? (p : Pattern) (cs : List Char) : Option (List Char) :=
  (p.rests cs).head?.map fun rest ↦ cs.take (cs.length - rest.length)

/-- Replaces the matches in a text of which the first `skip` characters belong to a match before
them. A match that is empty does not count. -/
def replaceAfter (p : Pattern) (replacement : List Char → List Char) (skip : Nat) :
    List Char → List Char
  | [] => []
  | c :: rest =>
    match skip with
    | k + 1 => replaceAfter p replacement k rest
    | 0 =>
      match p.match? (c :: rest) with
      | some (d :: found) => replacement (d :: found) ++ replaceAfter p replacement found.length rest
      | _ => c :: replaceAfter p replacement 0 rest

/-- Replaces the matches in a text in one pass from left to right. -/
def replaceAll (p : Pattern) (replacement : List Char → List Char) (cs : List Char) : List Char :=
  replaceAfter p replacement 0 cs

/-! ## Words -/

/-- The words that a pattern stands for, the preferred ones first. -/
def words : Pattern → List (List Char)
  | empty => [[]]
  | char c => [[c]]
  | seq first second => first.words.flatMap fun u ↦ second.words.map (u ++ ·)
  | alt first second => first.words ++ second.words

/-- What is left of a text behind a word that it begins with. -/
def behind? (cs word : List Char) : Option (List Char) :=
  if word <+: cs then some (cs.drop word.length) else none

theorem behind?_append (cs u v : List Char) :
    behind? cs (u ++ v) = (behind? cs u).bind (behind? · v) := by
  rw [behind?, behind?]
  by_cases hu : u <+: cs
  · obtain ⟨rest, rfl⟩ := hu
    rw [if_pos (List.prefix_append u rest), List.drop_left, List.length_append, ← List.drop_drop,
      List.drop_left]
    simp [behind?]
  · have huv : ¬u ++ v <+: cs := fun h ↦ hu ((List.prefix_append u v).trans h)
    rw [if_neg hu, if_neg huv]
    rfl

/-- Matching is looking for a word at the front, one word after the other. -/
theorem rests_eq_filterMap (p : Pattern) (cs : List Char) :
    p.rests cs = p.words.filterMap (behind? cs) := by
  induction p generalizing cs with
  | empty => simp [rests, words, behind?]
  | char c =>
    cases cs with
    | nil => simp [rests, words, behind?]
    | cons d rest =>
      by_cases h : c = d
      · simp [rests, words, behind?, h]
      · simp [rests, words, behind?, h, List.cons_prefix_cons]
  | seq first second ihFirst ihSecond =>
    rw [rests, words, ihFirst, List.filterMap_flatMap, List.filterMap_eq_flatMap_toList,
      List.flatMap_assoc]
    -- a word of the first pattern leaves a text, in front of which the second one is matched
    refine List.flatMap_congr fun u _ ↦ ?_
    rw [List.filterMap_map]
    cases hbehind : behind? cs u with
    | none => simp [behind?_append, hbehind]
    | some rest => simp [behind?_append, hbehind, ihSecond]
  | alt first second ihFirst ihSecond =>
    rw [rests, words, List.filterMap_append, ihFirst, ihSecond]

theorem match?_eq_find? (p : Pattern) (cs : List Char) :
    p.match? cs = p.words.find? (· <+: cs) := by
  rw [match?, rests_eq_filterMap]
  induction p.words with
  | nil => rfl
  | cons word words ih =>
    by_cases h : word <+: cs
    · obtain ⟨rest, rfl⟩ := h
      simp [behind?]
    · rw [List.find?_cons_of_neg (by simpa using h), ← ih, List.filterMap_cons, behind?, if_neg h]

end Pattern

end CitationFilter
