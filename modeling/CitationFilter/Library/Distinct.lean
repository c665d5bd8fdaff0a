/-!
# Lists without repetitions

The ids of a store and the uncited items of a document are listed once each, in the order in which
they first occur.
-/

namespace CitationFilter

/-- The elements of a list, each once, in order of first occurrence. -/
def distinct {α : Type} [DecidableEq α] : List α → List α
  | [] => []
  | a :: rest => a :: (distinct rest).filter (· ≠ a)

@[simp] theorem mem_distinct {α : Type} [DecidableEq α] {a : α} {l : List α} :
    a ∈ distinct l ↔ a ∈ l := by
  induction l with
  | nil => rfl
  | cons b rest ih => by_cases h : a = b <;> simp [distinct, h, ih]

theorem nodup_distinct {α : Type} [DecidableEq α] (l : List α) : (distinct l).Nodup := by
  induction l with
  | nil => exact List.nodup_nil
  | cons b rest ih =>
    have h : b ∉ (distinct rest).filter (· ≠ b) := by simp
    exact List.nodup_cons.2 ⟨h, ih.sublist List.filter_sublist⟩

end CitationFilter
