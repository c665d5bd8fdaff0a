import Mathlib.Data.List.Forall2

/-!
# Computations that may fail

How a sequence, an image or a list of computations ends, in terms of how the parts end.
-/

namespace CitationFilter

namespace Except

variable {ε ε' α β : Type} {x : Except ε α} {f : α → Except ε β}

theorem bind_eq_ok {b : β} : x >>= f = .ok b ↔ ∃ a, x = .ok a ∧ f a = .ok b := by
  rcases x with e | a
  · exact iff_of_false (by rintro ⟨⟩) (by rintro ⟨a, ⟨⟩, -⟩)
  · refine ⟨fun h ↦ ⟨a, rfl, h⟩, ?_⟩
    rintro ⟨a, ⟨⟩, h⟩
    exact h

theorem bind_eq_error {e : ε} :
    x >>= f = .error e ↔ x = .error e ∨ ∃ a, x = .ok a ∧ f a = .error e := by
  rcases x with e' | a
  · refine ⟨fun h ↦ Or.inl (congrArg Except.error (Except.error.inj h)), ?_⟩
    rintro (h | ⟨a, ⟨⟩, -⟩)
    exact congrArg Except.error (Except.error.inj h)
  · refine ⟨fun h ↦ Or.inr ⟨a, rfl, h⟩, ?_⟩
    rintro (⟨⟨⟩⟩ | ⟨a, ⟨⟩, h⟩)
    exact h

theorem map_eq_ok {g : α → β} {b : β} : x.map g = .ok b ↔ ∃ a, x = .ok a ∧ g a = b := by
  rcases x with e | a
  · exact iff_of_false (by rintro ⟨⟩) (by rintro ⟨a, ⟨⟩, -⟩)
  · refine ⟨fun h ↦ ⟨a, rfl, Except.ok.inj h⟩, ?_⟩
    rintro ⟨a, ⟨⟩, rfl⟩
    rfl

theorem map_eq_error {g : α → β} {e : ε} : x.map g = .error e ↔ x = .error e := by
  rcases x with e' | a
  · exact ⟨fun h ↦ congrArg Except.error (Except.error.inj h),
      fun h ↦ congrArg Except.error (Except.error.inj h)⟩
  · exact iff_of_false (by rintro ⟨⟩) (by rintro ⟨⟩)

theorem mapError_eq_ok {g : ε → ε'} {a : α} : x.mapError g = .ok a ↔ x = .ok a := by
  rcases x with e | b
  · exact iff_of_false (by rintro ⟨⟩) (by rintro ⟨⟩)
  · exact ⟨fun h ↦ congrArg Except.ok (Except.ok.inj h),
      fun h ↦ congrArg Except.ok (Except.ok.inj h)⟩

theorem mapError_eq_error {g : ε → ε'} {e : ε'} :
    x.mapError g = .error e ↔ ∃ e', x = .error e' ∧ g e' = e := by
  rcases x with e' | b
  · refine ⟨fun h ↦ ⟨e', rfl, Except.error.inj h⟩, ?_⟩
    rintro ⟨_, ⟨⟩, rfl⟩
    rfl
  · exact iff_of_false (by rintro ⟨⟩) (by rintro ⟨_, ⟨⟩, -⟩)

theorem toOption_eq_some_iff {a : α} : x.toOption = some a ↔ x = .ok a := by
  rcases x with e | b
  · exact iff_of_false (by rintro ⟨⟩) (by rintro ⟨⟩)
  · exact ⟨fun h ↦ congrArg Except.ok (Option.some.inj h),
      fun h ↦ congrArg some (Except.ok.inj h)⟩

/-- A list of computations gives the results of its members, in order. -/
theorem mapM_eq_ok_iff {as : List α} {bs : List β} :
    as.mapM f = .ok bs ↔ List.Forall₂ (fun a b ↦ f a = .ok b) as bs := by
  induction as generalizing bs with
  | nil =>
    constructor
    · rintro ⟨⟩
      exact .nil
    · intro h
      rw [List.forall₂_nil_left_iff.mp h]
      rfl
  | cons a as ih =>
    rw [List.mapM_cons, bind_eq_ok, List.forall₂_cons_left_iff]
    constructor
    · rintro ⟨b, hb, h⟩
      obtain ⟨bs, hbs, ⟨⟩⟩ := bind_eq_ok.mp h
      exact ⟨b, bs, hb, ih.mp hbs, rfl⟩
    · rintro ⟨b, bs, hb, hbs, rfl⟩
      exact ⟨b, hb, bind_eq_ok.mpr ⟨bs, ih.mpr hbs, rfl⟩⟩

theorem exists_mapM_eq_ok_iff {as : List α} :
    (∃ bs, as.mapM f = .ok bs) ↔ ∀ a ∈ as, ∃ b, f a = .ok b := by
  constructor
  · rintro ⟨bs, h⟩
    have hall := (mapM_eq_ok_iff.mp h).imp fun a b hb ↦ (⟨⟨b, hb⟩, hb⟩ : (∃ b, f a = .ok b) ∧ _)
    exact ((List.forall₂_and_left _ _).mp hall).1
  · intro h
    induction as with
    | nil => exact ⟨[], rfl⟩
    | cons a as ih =>
      obtain ⟨⟨b, hb⟩, has⟩ := List.forall_mem_cons.mp h
      obtain ⟨bs, hbs⟩ := ih has
      exact ⟨b :: bs, by rw [List.mapM_cons, hb, hbs]; rfl⟩

theorem toOption_mapM (as : List α) : (as.mapM f).toOption = as.mapM fun a ↦ (f a).toOption := by
  induction as with
  | nil => rfl
  | cons a rest ih =>
    rw [List.mapM_cons, List.mapM_cons, ← ih]
    rcases f a with e | b
    · rfl
    · rcases rest.mapM f with e | bs
      · rfl
      · rfl

/-- The first computation that fails decides how a list of them fails. -/
theorem mapM_append_cons_eq_error {before : List α} {a : α} {e : ε}
    (hbefore : ∀ b ∈ before, ∃ c, f b = .ok c) (ha : f a = .error e) (after : List α) :
    (before ++ a :: after).mapM f = .error e := by
  obtain ⟨cs, hcs⟩ := exists_mapM_eq_ok_iff.mpr hbefore
  rw [List.mapM_append, hcs, List.mapM_cons, ha]
  rfl

theorem mapM_eq_error_iff {as : List α} {e : ε} :
    as.mapM f = .error e ↔
      ∃ before a after, as = before ++ a :: after ∧ (∀ b ∈ before, ∃ c, f b = .ok c) ∧
        f a = .error e := by
  constructor
  · intro h
    induction as with
    | nil => cases h
    | cons a as ih =>
      rw [List.mapM_cons, bind_eq_error] at h
      rcases h with ha | ⟨b, hb, h⟩
      · exact ⟨[], a, as, rfl, List.forall_mem_nil _, ha⟩
      · rcases bind_eq_error.mp h with has | ⟨bs, -, ⟨⟩⟩
        obtain ⟨before, c, after, rfl, hbefore, hc⟩ := ih has
        exact ⟨a :: before, c, after, rfl, List.forall_mem_cons.mpr ⟨⟨b, hb⟩, hbefore⟩, hc⟩
  · rintro ⟨before, a, after, rfl, hbefore, ha⟩
    exact mapM_append_cons_eq_error hbefore ha after

end Except

end CitationFilter
