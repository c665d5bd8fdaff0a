import CitationFilter.Citation.Locator
import CitationFilter.Proofs.Text.Anchored
import CitationFilter.Proofs.Text.Trim

/-!
# Brackets around a text

The brackets at the two ends of a text can be removed in one pass, by a pattern with an alternative
for each end, or in two steps, first the opening and then the closing bracket. Both alternatives
take the blanks inside the brackets with them, so if nothing but blanks stands between the brackets
it is not clear to which of the two they belong. It makes no difference: the pass takes them with
the opening bracket, as the first step does, and what is left is a closing bracket without blanks.
-/

namespace CitationFilter

namespace Locator

open Text

/-! ## The pattern -/

/-- An opening bracket at the start of the text with the blanks after it. -/
def opening : Anchored := .seq .start (.seq (.plain (.char '[')) (.many isBlank))

/-- A closing bracket at the end of the text with the blanks before it. -/
def closing : Anchored := .seq (.many isBlank) (.seq (.plain (.char ']')) .stop)

/-- The brackets at both ends. -/
def brackets : Anchored := .alt opening closing

variable {size : Nat}

theorem rests_opening_of_lt {cs : List Char} (h : cs.length < size) :
    opening.rests size cs = [] := by
  simp [opening, Anchored.rests, h.ne]

theorem rests_opening_of_head?_ne {cs : List Char} (h : cs.head? ≠ some '[') :
    opening.rests size cs = [] := by
  rcases cs with _ | ⟨c, rest⟩
  · simp [opening, Anchored.rests, Pattern.rests]
  · have hc : '[' ≠ c := fun hc ↦ h (by rw [hc, List.head?_cons])
    simp [opening, Anchored.rests, Pattern.rests, hc]

theorem rests_opening_cons (rest : List Char) :
    opening.rests ('[' :: rest).length ('[' :: rest) = Anchored.runs isBlank rest := by
  simp [opening, Anchored.rests, Pattern.rests]

theorem rests_closing (size : Nat) (cs : List Char) :
    closing.rests size cs = if closes cs then [[]] else [] := by
  have hbracket (left : List Char) : (Anchored.seq (.plain (.char ']')) .stop).rests size left
      = if left = [']'] then [[]] else [] := by
    rcases left with _ | ⟨c, rest⟩
    · rfl
    · by_cases hc : ']' = c
      · simp [Anchored.rests, Pattern.rests, ← hc]
      · simp [Anchored.rests, Pattern.rests, hc, Ne.symm hc]
  rw [closing, Anchored.rests, Anchored.rests, List.flatMap_congr fun left _ ↦ hbracket left]
  induction cs with
  | nil => rfl
  | cons c rest ih =>
    rw [Anchored.runs, closes]
    by_cases hc : isBlank c
    · have hne : c :: rest ≠ [']'] := by
        intro heq
        obtain ⟨rfl, -⟩ := List.cons.inj heq
        exact absurd hc (by decide)
      rw [if_pos hc, List.flatMap_append, ih, List.flatMap_singleton, if_neg hne, List.append_nil,
        closes, trimFront, trimFront, List.dropWhile_cons_of_pos hc]
    · rw [if_neg hc, List.flatMap_singleton, trimFront, List.dropWhile_cons_of_neg hc]
      simp

/-! ## The pass -/

/-- Where no opening bracket matches the pass copies the text up to the place where it closes. -/
theorem removeAfter_brackets {cs : List Char} (hle : cs.length ≤ size)
    (hopening : opening.rests size cs = []) :
    brackets.removeAfter size 0 cs = upToClosing cs := by
  induction cs with
  | nil => rfl
  | cons c rest ih =>
    have hrests : brackets.rests size (c :: rest) = if closes (c :: rest) then [[]] else [] := by
      rw [brackets, Anchored.rests, hopening, rests_closing, List.nil_append]
    rw [upToClosing]
    by_cases hcloses : closes (c :: rest)
    · rw [if_pos hcloses] at hrests ⊢
      have hleft : (brackets.rests size (c :: rest)).head? = some [] := by simp [hrests]
      exact Anchored.removeAfter_of_head?_rests hleft List.nil_suffix (List.cons_ne_nil _ _).symm
    · rw [if_neg hcloses] at hrests ⊢
      have hlt : rest.length < size := Nat.lt_of_succ_le hle
      rw [Anchored.removeAfter_of_rests_eq_nil hrests, ih hlt.le (rests_opening_of_lt hlt)]

theorem swept_of_head?_ne {cs : List Char} (h : cs.head? ≠ some '[') :
    swept cs = upToClosing cs := by
  rw [swept]
  rintro rest rfl
  exact h rfl

theorem removeAll_brackets (cs : List Char) : brackets.removeAll cs = swept cs := by
  rw [Anchored.removeAll]
  by_cases hhead : cs.head? = some '['
  · obtain ⟨rest, rfl⟩ := List.head?_eq_some_iff.mp hhead
    have hsuffix : trimFront rest <:+ '[' :: rest :=
      (List.dropWhile_suffix isBlank).trans (List.suffix_cons _ _)
    have hlt : (trimFront rest).length < ('[' :: rest).length :=
      Nat.lt_succ_of_le (List.dropWhile_suffix isBlank).length_le
    -- the opening bracket is preferred, with all blanks after it
    have hpreferred : (brackets.rests ('[' :: rest).length ('[' :: rest)).head?
        = some (trimFront rest) := by
      rw [brackets, Anchored.rests, rests_opening_cons, List.head?_append, Anchored.head?_runs,
        Option.some_or, trimFront]
    rw [Anchored.removeAfter_of_head?_rests hpreferred hsuffix fun heq ↦ hlt.ne (by rw [heq]),
      removeAfter_brackets hlt.le (rests_opening_of_lt hlt), swept]
  · rw [removeAfter_brackets (Nat.le_refl _) (rests_opening_of_head?_ne hhead),
      swept_of_head?_ne hhead]

/-! ## Two steps -/

theorem closes_iff {cs : List Char} :
    closes cs ↔ ∃ u, (∀ c ∈ u, isBlank c) ∧ cs = u ++ [']'] := by
  rw [closes, decide_eq_true_iff]
  constructor
  · intro h
    rw [← h]
    exact exists_eq_append_trimFront cs
  · rintro ⟨u, hu, rfl⟩
    rw [trimFront_append hu]
    decide

theorem withoutClosing_concat (cs : List Char) : withoutClosing (cs ++ [']']) = trimBack cs := by
  rw [withoutClosing, if_pos List.getLast?_concat, List.dropLast_concat]

theorem withoutClosing_of_getLast?_ne {cs : List Char} (h : cs.getLast? ≠ some ']') :
    withoutClosing cs = cs := if_neg h

theorem upToClosing_of_getLast?_ne {cs : List Char} (h : cs.getLast? ≠ some ']') :
    upToClosing cs = cs := by
  induction cs with
  | nil => rfl
  | cons c rest ih =>
    have hcloses : ¬closes (c :: rest) := by
      rw [closes_iff]
      rintro ⟨u, -, hu⟩
      exact h (by rw [hu, List.getLast?_concat])
    have hrest : rest.getLast? ≠ some ']' := by
      intro hrest
      exact h (by rw [List.getLast?_cons, hrest, Option.getD_some])
    rw [upToClosing, if_neg hcloses, ih hrest]

/-- Behind a text that does not end in a blank a closing bracket is reached with all its blanks. -/
theorem upToClosing_append {front v : List Char} (hfront : ∀ c ∈ front.getLast?, isBlank c = false)
    (hv : closes v) : upToClosing (front ++ v) = front := by
  induction front with
  | nil =>
    rcases v with _ | ⟨c, rest⟩
    · rfl
    · rw [List.nil_append, upToClosing, if_pos hv]
  | cons c front ih =>
    -- the last character in front is not a blank, so it is not yet part of what closes
    have hcloses : ¬closes (c :: front ++ v) := by
      rw [closes_iff] at hv ⊢
      obtain ⟨w, -, rfl⟩ := hv
      rintro ⟨u, hu, heq⟩
      rw [← List.append_assoc] at heq
      obtain rfl := List.append_cancel_right heq
      have hlast := List.getLast?_eq_getLast_of_ne_nil (List.cons_ne_nil c front)
      have hblank := hu _ (List.mem_append_left _ (List.mem_of_getLast? hlast))
      exact absurd hblank (by simp [hfront _ hlast])
    have hrest : ∀ d ∈ front.getLast?, isBlank d = false := by
      intro d hd
      exact hfront d (by rw [List.getLast?_cons, Option.mem_def.mp hd]; rfl)
    rw [List.cons_append] at hcloses ⊢
    rw [upToClosing, if_neg hcloses, ih hrest]

/-- Copying a text up to where it closes leaves out the closing bracket with its blanks. -/
theorem upToClosing_eq_withoutClosing (cs : List Char) : upToClosing cs = withoutClosing cs := by
  by_cases hlast : cs.getLast? = some ']'
  · obtain ⟨front, rfl⟩ := List.getLast?_eq_some_iff.mp hlast
    obtain ⟨v, hv, hsplit⟩ := exists_eq_trimBack_append front
    have hcloses : closes (v ++ [']']) := closes_iff.mpr ⟨v, hv, rfl⟩
    calc upToClosing (front ++ [']'])
        = upToClosing (trimBack front ++ (v ++ [']'])) := by
          rw [← List.append_assoc, ← hsplit]
      _ = trimBack front := upToClosing_append isBlank_of_mem_getLast?_trimBack hcloses
      _ = withoutClosing (front ++ [']']) := (withoutClosing_concat front).symm
  · rw [upToClosing_of_getLast?_ne hlast, withoutClosing_of_getLast?_ne hlast]

theorem withoutOpening_of_head?_ne {cs : List Char} (h : cs.head? ≠ some '[') :
    withoutOpening cs = cs := by
  rw [withoutOpening]
  rintro rest rfl
  exact h rfl

/-- One pass leaves what the two steps leave. -/
theorem swept_eq_unbracketed (cs : List Char) : swept cs = unbracketed cs := by
  by_cases hhead : cs.head? = some '['
  · obtain ⟨rest, rfl⟩ := List.head?_eq_some_iff.mp hhead
    rw [swept, unbracketed, withoutOpening, upToClosing_eq_withoutClosing]
  · rw [swept_of_head?_ne hhead, unbracketed, withoutOpening_of_head?_ne hhead,
      upToClosing_eq_withoutClosing]

/-! ## What is removed -/

theorem exists_eq_append_withoutOpening (cs : List Char) :
    ∃ front, cs = front ++ withoutOpening cs ∧
      (front = [] ∨ ∃ u, (∀ c ∈ u, isBlank c) ∧ front = '[' :: u) := by
  by_cases hhead : cs.head? = some '['
  · obtain ⟨rest, rfl⟩ := List.head?_eq_some_iff.mp hhead
    obtain ⟨u, hu, hsplit⟩ := exists_eq_append_trimFront rest
    refine ⟨'[' :: u, ?_, Or.inr ⟨u, hu, rfl⟩⟩
    rw [withoutOpening, List.cons_append, ← hsplit]
  · exact ⟨[], (withoutOpening_of_head?_ne hhead).symm, Or.inl rfl⟩

theorem exists_eq_withoutClosing_append (cs : List Char) :
    ∃ back, cs = withoutClosing cs ++ back ∧
      (back = [] ∨ ∃ v, (∀ c ∈ v, isBlank c) ∧ back = v ++ [']']) := by
  by_cases hlast : cs.getLast? = some ']'
  · obtain ⟨front, rfl⟩ := List.getLast?_eq_some_iff.mp hlast
    obtain ⟨v, hv, hsplit⟩ := exists_eq_trimBack_append front
    refine ⟨v ++ [']'], ?_, Or.inr ⟨v, hv, rfl⟩⟩
    rw [withoutClosing_concat, ← List.append_assoc, ← hsplit]
  · exact ⟨[], by rw [withoutClosing_of_getLast?_ne hlast, List.append_nil], Or.inl rfl⟩

/-- Of a text in brackets the trimmed text is left, and so are the brackets in it. -/
theorem unbracketed_bracketed (cs : List Char) : unbracketed ('[' :: cs ++ [']']) = trimmed cs := by
  rw [unbracketed, List.cons_append, withoutOpening, trimFront_concat _ (by decide),
    withoutClosing_concat, trimmed]

theorem unbracketed_of_ne {cs : List Char} (hhead : cs.head? ≠ some '[')
    (hlast : cs.getLast? ≠ some ']') : unbracketed cs = cs := by
  rw [unbracketed, withoutOpening_of_head?_ne hhead, withoutClosing_of_getLast?_ne hlast]

theorem pieces_eq_map (suffix : List Json) : pieces suffix
    = (suffix.filterMap pieceText?).map fun s ↦ String.ofList (unbracketed s.toList) := by
  simp only [← swept_eq_unbracketed]
  rfl

theorem pieces_bracketed {inline : Json} {u x v : String} (hu : allBlank u) (hv : allBlank v)
    (hx : Tight x.toList) (hinline : pieceText? inline = some ("[" ++ u ++ x ++ v ++ "]")) :
    pieces [inline] = [x] := by
  have hchars : ("[" ++ u ++ x ++ v ++ "]").toList
      = '[' :: (u.toList ++ x.toList ++ v.toList) ++ [']'] := by
    simp
  rw [pieces_eq_map, List.filterMap_cons_some hinline, List.filterMap_nil, List.map_singleton,
    hchars, unbracketed_bracketed, trimmed_append_append (List.all_eq_true.mp hu)
      (List.all_eq_true.mp hv), hx.trimmed_eq, String.ofList_toList]

/-- **One pass removes what two steps remove.** The pieces of a suffix are its texts without the
matches of the pattern, and they are what is left of the texts when first an opening bracket at the
front is dropped, with all blanks after it, and then a closing bracket at the back, with all blanks
before it. Nothing else is ever removed, and a text that neither begins with the one nor ends with
the other keeps even the blanks around it. Of a text in brackets with blanks inside them the text
is left, whatever brackets there are in it. -/
theorem one_pass_as_two_steps (suffix : List Json) :
    pieces suffix = (suffix.filterMap pieceText?).map
      (fun s ↦ String.ofList (brackets.removeAll s.toList)) ∧
    pieces suffix = (suffix.filterMap pieceText?).map
      (fun s ↦ String.ofList (withoutClosing (withoutOpening s.toList))) ∧
    (∀ cs, ∃ front back, cs = front ++ withoutClosing (withoutOpening cs) ++ back ∧
      (front = [] ∨ ∃ u, (∀ c ∈ u, isBlank c) ∧ front = '[' :: u) ∧
      (back = [] ∨ ∃ v, (∀ c ∈ v, isBlank c) ∧ back = v ++ [']'])) ∧
    (∀ cs : List Char, cs.head? ≠ some '[' → cs.getLast? ≠ some ']' →
      withoutClosing (withoutOpening cs) = cs) ∧
    ∀ inline u x v, allBlank u → allBlank v → Tight x.toList →
      pieceText? inline = some ("[" ++ u ++ x ++ v ++ "]") → pieces [inline] = [x] := by
  refine ⟨?_, pieces_eq_map suffix, ?_, ?_, ?_⟩
  · simp only [removeAll_brackets]
    rfl
  · intro cs
    obtain ⟨front, hfront, hopening⟩ := exists_eq_append_withoutOpening cs
    obtain ⟨back, hback, hclosing⟩ := exists_eq_withoutClosing_append (withoutOpening cs)
    refine ⟨front, back, ?_, hopening, hclosing⟩
    rw [List.append_assoc, ← hback, ← hfront]
  · exact fun cs ↦ unbracketed_of_ne
  · exact fun inline u x v ↦ pieces_bracketed

/-- A text in two pairs of brackets, and one with brackets and blanks that stay. -/
theorem one_pass_as_two_steps_sample :
    pieces [.obj [("t", .str "Str"), ("c", .str "[ [a]\t]")]] = ["[a]"] ∧
    withoutClosing (withoutOpening " [b] c ".toList) = " [b] c ".toList := by
  obtain ⟨-, -, -, hkept, hbracketed⟩ := one_pass_as_two_steps []
  refine ⟨hbracketed _ " " "[a]" "\t" (by decide) (by decide) (by decide) rfl, ?_⟩
  exact hkept _ (by decide) (by decide)

/-- Brackets with nothing but blanks between them, on their own, and not at the ends. -/
example : ["[ ]", "[", " ]", "[[a]]", "a ] ]", "]["].map (fun s ↦ swept s.toList)
    = [[], [], [], "[a]".toList, "a ]".toList, "][".toList] := by
  decide +kernel

end Locator

end CitationFilter
