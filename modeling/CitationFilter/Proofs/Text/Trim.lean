import CitationFilter.Text.Blank
import Mathlib.Data.List.DropRight

/-!
# Trimming

A text is tight if no blank stands at either end of it. Trimming makes a text tight, and a tight
text is what trimming leaves alone.
-/

namespace CitationFilter

namespace Text

/-- No blank stands at the front or at the back of the text. -/
structure Tight (cs : List Char) : Prop where
  front : ∀ c ∈ cs.head?, isBlank c = false
  back : ∀ c ∈ cs.getLast?, isBlank c = false

/-- Only the two characters at the ends have to be looked at. -/
theorem tight_iff {cs : List Char} :
    Tight cs ↔ cs.head?.all (fun c ↦ !isBlank c) ∧ cs.getLast?.all fun c ↦ !isBlank c := by
  simp only [Option.all_eq_true, Bool.not_eq_true']
  exact ⟨fun h ↦ ⟨h.front, h.back⟩, fun h ↦ ⟨h.1, h.2⟩⟩

instance (cs : List Char) : Decidable (Tight cs) := decidable_of_iff _ tight_iff.symm

theorem tight_nil : Tight [] := ⟨by rintro _ ⟨⟩, by rintro _ ⟨⟩⟩

/-- Between two tight texts there may be any text, as long as they are not empty. -/
theorem Tight.append_append {u v : List Char} (hu : Tight u) (hune : u ≠ []) (hv : Tight v)
    (hvne : v ≠ []) (cs : List Char) : Tight (u ++ cs ++ v) := by
  constructor
  · intro c hc
    rw [List.append_assoc, List.head?_append_of_ne_nil _ hune] at hc
    exact hu.front c hc
  · intro c hc
    rw [List.getLast?_append_of_ne_nil _ hvne] at hc
    exact hv.back c hc

theorem trimBack_eq_rdropWhile (cs : List Char) : trimBack cs = cs.rdropWhile isBlank := rfl

theorem Tight.trimmed_eq {cs : List Char} (h : Tight cs) : trimmed cs = cs := by
  have hfront : trimFront cs = cs := by
    cases cs with
    | nil => rfl
    | cons c rest => exact List.dropWhile_cons_of_neg (by simp [h.front c rfl])
  rw [trimmed, hfront, trimBack_eq_rdropWhile, List.rdropWhile_eq_self_iff]
  intro hne
  simp [h.back _ (List.getLast_mem_getLast? hne)]

/-- What is left when blanks are dropped at the back does not end in one. -/
theorem isBlank_of_mem_getLast?_trimBack {cs : List Char} :
    ∀ c ∈ (trimBack cs).getLast?, isBlank c = false := by
  intro c hc
  obtain ⟨hne, rfl⟩ := List.mem_getLast?_eq_getLast hc
  exact Bool.not_eq_true _ ▸ List.rdropWhile_last_not isBlank cs hne

theorem tight_trimmed (cs : List Char) : Tight (trimmed cs) := by
  refine ⟨?_, isBlank_of_mem_getLast?_trimBack⟩
  intro c hc
  obtain ⟨rest, hrest⟩ := List.head?_eq_some_iff.mp hc
  -- what is dropped at the back leaves the front as it is
  obtain ⟨dropped, hdropped⟩ := List.rdropWhile_prefix isBlank (trimFront cs)
  have hnot := List.head?_dropWhile_not isBlank cs
  rw [← trimBack_eq_rdropWhile, ← trimmed, hrest, trimFront] at hdropped
  rw [← hdropped] at hnot
  exact hnot

@[simp] theorem trimmed_trimmed (cs : List Char) : trimmed (trimmed cs) = trimmed cs :=
  (tight_trimmed cs).trimmed_eq

/-- Nothing is left exactly of a text of blanks. -/
theorem trimmed_eq_nil_iff {cs : List Char} : trimmed cs = [] ↔ ∀ c ∈ cs, isBlank c := by
  rw [trimmed, trimBack_eq_rdropWhile, List.rdropWhile_eq_nil_iff]
  constructor
  · intro h
    refine List.dropWhile_eq_nil_iff.mp ?_
    by_contra hne
    -- what is left at the front would begin with a character that is not blank
    have hblank : isBlank ((cs.dropWhile isBlank).head hne) = true := h _ (List.head_mem hne)
    rw [List.head_dropWhile_not isBlank hne] at hblank
    cases hblank
  · intro h c hc
    exact h c ((List.dropWhile_suffix isBlank).mem hc)

theorem trimmed_ne_nil {s : String} (h : ¬allBlank s) : trimmed s.toList ≠ [] := by
  rw [allBlank, List.all_eq_true] at h
  exact fun hnil ↦ h (trimmed_eq_nil_iff.mp hnil)

/-! ## Blanks around a text -/

theorem trimFront_append {u : List Char} (h : ∀ c ∈ u, isBlank c) (cs : List Char) :
    trimFront (u ++ cs) = trimFront cs := List.dropWhile_append_of_pos h

theorem trimBack_append (cs : List Char) {v : List Char} (h : ∀ c ∈ v, isBlank c) :
    trimBack (cs ++ v) = trimBack cs := by
  rw [trimBack, trimBack, List.reverse_append, List.dropWhile_append_of_pos]
  intro c hc
  exact h c (List.mem_reverse.mp hc)

/-- A character that is not blank stays at the back when blanks are dropped at the front. -/
theorem trimFront_concat (cs : List Char) {c : Char} (h : isBlank c = false) :
    trimFront (cs ++ [c]) = trimFront cs ++ [c] := by
  rw [trimFront, List.dropWhile_append]
  by_cases hnil : cs.dropWhile isBlank = []
  · simp [trimFront, hnil, h]
  · simp [trimFront, hnil]

/-- Blanks around a text are trimmed with the blanks at its ends. -/
theorem trimmed_append_append {u v : List Char} (hu : ∀ c ∈ u, isBlank c)
    (hv : ∀ c ∈ v, isBlank c) (cs : List Char) : trimmed (u ++ cs ++ v) = trimmed cs := by
  rw [trimmed, List.append_assoc, trimFront_append hu, trimFront, List.dropWhile_append]
  by_cases hnil : cs.dropWhile isBlank = []
  · have hcs : trimmed cs = [] := by
      rw [trimmed, trimFront, hnil, trimBack_eq_rdropWhile, List.rdropWhile_nil]
    rw [hcs, if_pos (by simpa using hnil)]
    exact trimmed_eq_nil_iff.mpr hv
  · rw [if_neg (by simpa using hnil), trimBack_append _ hv, ← trimFront, ← trimmed]

theorem exists_eq_append_trimFront (cs : List Char) :
    ∃ u, (∀ c ∈ u, isBlank c) ∧ cs = u ++ trimFront cs :=
  ⟨cs.takeWhile isBlank, fun _ ↦ List.mem_takeWhile_imp, List.takeWhile_append_dropWhile.symm⟩

theorem exists_eq_trimBack_append (cs : List Char) :
    ∃ v, (∀ c ∈ v, isBlank c) ∧ cs = trimBack cs ++ v :=
  ⟨cs.rtakeWhile isBlank, fun _ ↦ List.mem_rtakeWhile_imp,
    List.rdropWhile_append_rtakeWhile.symm⟩

theorem exists_eq_append_trimmed (cs : List Char) :
    ∃ u v, (∀ c ∈ u, isBlank c) ∧ (∀ c ∈ v, isBlank c) ∧ cs = u ++ trimmed cs ++ v := by
  obtain ⟨u, hu, hfront⟩ := exists_eq_append_trimFront cs
  obtain ⟨v, hv, hback⟩ := exists_eq_trimBack_append (trimFront cs)
  refine ⟨u, v, hu, hv, ?_⟩
  rw [trimmed, List.append_assoc, ← hback, ← hfront]

end Text

end CitationFilter
