import CitationFilter.Engine.Basic

/-!
# Steps and their runs

A step may fail and changes a state, and what it does is a function from states: `Step.runFrom`
gives the result together with the state that is left. The lemmas here open a run of a sequence of
steps into the runs of its parts, so that nothing later has to look into the monad.

## Calls over a list

A step that is made for one element of a list after the other is described by `Step.Answers`, which
lists the answers along the chain of states. `Step.logged` makes the same step and writes down for
which elements it was made; with it "the calls that were made" is a value and not a way of speaking.
-/

namespace CitationFilter

namespace Step

variable {ε σ τ α β : Type}

/-- What a step does from a state: its result and the state it leaves. -/
def runFrom (step : ExceptT ε (StateM σ) α) (s : σ) : Except ε α × σ := step.run.run s

theorem runFrom_mk (f : σ → Except ε α × σ) (s : σ) : runFrom (ExceptT.mk f) s = f s := rfl

@[simp] theorem runFrom_pure (a : α) (s : σ) :
    runFrom (pure a : ExceptT ε (StateM σ) α) s = (.ok a, s) := rfl

@[simp] theorem runFrom_lift (x : Except ε α) (s : σ) :
    runFrom (liftM x : ExceptT ε (StateM σ) α) s = (x, s) := rfl

theorem runFrom_lift_eq_ok {x : Except ε α} {s s' : σ} {a : α} :
    runFrom (liftM x : ExceptT ε (StateM σ) α) s = (.ok a, s') ↔ x = .ok a ∧ s = s' := by
  rw [runFrom_lift, Prod.mk.injEq]

theorem runFrom_bind (p : ExceptT ε (StateM σ) α) (f : α → ExceptT ε (StateM σ) β) (s : σ) :
    runFrom (p >>= f) s =
      match runFrom p s with
      | (.ok a, s') => runFrom (f a) s'
      | (.error e, s') => (.error e, s') := by
  show (ExceptT.bindCont f (runFrom p s).1) (runFrom p s).2 = _
  rcases runFrom p s with ⟨_ | _, _⟩ <;> rfl

theorem runFrom_map (f : α → β) (p : ExceptT ε (StateM σ) α) (s : σ) :
    runFrom (f <$> p) s = ((runFrom p s).1.map f, (runFrom p s).2) := by
  rw [map_eq_pure_bind, runFrom_bind]
  rcases runFrom p s with ⟨_ | _, _⟩ <;> rfl

section Bind

variable {p : ExceptT ε (StateM σ) α} {f g : α → ExceptT ε (StateM σ) β} {s s₁ s' : σ}

theorem runFrom_bind_of_ok {a : α} (h : runFrom p s = (.ok a, s₁)) :
    runFrom (p >>= f) s = runFrom (f a) s₁ := by
  rw [runFrom_bind, h]

theorem runFrom_bind_of_error {e : ε} (h : runFrom p s = (.error e, s₁)) :
    runFrom (p >>= f) s = (.error e, s₁) := by
  rw [runFrom_bind, h]

/-- What follows a step may assume that the step has been made. -/
theorem runFrom_bind_congr
    (h : ∀ a s₁, runFrom p s = (.ok a, s₁) → runFrom (f a) s₁ = runFrom (g a) s₁) :
    runFrom (p >>= f) s = runFrom (p >>= g) s := by
  rw [runFrom_bind, runFrom_bind]
  rcases hp : runFrom p s with ⟨e | a, s₁⟩
  · rfl
  · exact h a s₁ hp

/-- A sequence succeeds exactly when both parts do. -/
theorem runFrom_bind_eq_ok {b : β} :
    runFrom (p >>= f) s = (.ok b, s') ↔
      ∃ a s₁, runFrom p s = (.ok a, s₁) ∧ runFrom (f a) s₁ = (.ok b, s') := by
  rw [runFrom_bind]
  rcases runFrom p s with ⟨_ | a, s₁⟩ <;> simp [and_assoc]

/-- A sequence fails in its first part or, after that, in its second. -/
theorem runFrom_bind_eq_error {e : ε} :
    runFrom (p >>= f) s = (.error e, s') ↔
      runFrom p s = (.error e, s') ∨
        ∃ a s₁, runFrom p s = (.ok a, s₁) ∧ runFrom (f a) s₁ = (.error e, s') := by
  rw [runFrom_bind]
  rcases runFrom p s with ⟨_ | a, s₁⟩ <;> simp [and_assoc]

end Bind

/-! ## Failures -/

/-- Every failure of the step is as `P` says, about the error and the state that is left. -/
def FailsWith (P : ε → σ → Prop) (p : ExceptT ε (StateM σ) α) : Prop :=
  ∀ ⦃s e s'⦄, runFrom p s = (.error e, s') → P e s'

section FailsWith

variable {P : ε → σ → Prop}

theorem FailsWith.pure (a : α) : FailsWith P (Pure.pure a : ExceptT ε (StateM σ) α) := by
  rintro s e s' h
  cases h

theorem FailsWith.lift {x : Except ε α} (h : ∀ e, x = .error e → ∀ s, P e s) :
    FailsWith P (liftM x : ExceptT ε (StateM σ) α) := by
  intro s e s' hrun
  rw [runFrom_lift] at hrun
  cases hrun
  exact h e rfl s

theorem FailsWith.bind {p : ExceptT ε (StateM σ) α} {f : α → ExceptT ε (StateM σ) β}
    (hp : FailsWith P p) (hf : ∀ a, FailsWith P (f a)) : FailsWith P (p >>= f) := by
  intro s e s' h
  rcases runFrom_bind_eq_error.mp h with h | ⟨a, s₁, -, h⟩
  · exact hp h
  · exact hf a h

end FailsWith

/-! ## Calls over a list -/

/-- The step `f`, made for these elements one after the other, succeeds for each of them with the
answer in the same place, and leads from the first state to the last. -/
inductive Answers (f : α → ExceptT ε (StateM σ) β) : σ → List α → List β → σ → Prop
  | nil (s : σ) : Answers f s [] [] s
  | cons {s s₁ s' : σ} {a : α} {b : β} {as : List α} {bs : List β} :
      runFrom (f a) s = (.ok b, s₁) → Answers f s₁ as bs s' → Answers f s (a :: as) (b :: bs) s'

/-- The step `f` with a log of the elements for which it is made. -/
def logged (f : α → ExceptT ε (StateM σ) β) (a : α) : ExceptT ε (StateM (σ × List α)) β :=
  ExceptT.mk fun (s, log) ↦
    let (result, s') := runFrom (f a) s
    (result, (s', log ++ [a]))

theorem runFrom_logged (f : α → ExceptT ε (StateM σ) β) (a : α) (s : σ) (log : List α) :
    runFrom (logged f a) (s, log)
      = ((runFrom (f a) s).1, (runFrom (f a) s).2, log ++ [a]) := rfl

/-- Making a step for every element of a list: either all are answered, or the first one that is
not ends it with its error, and no further one is asked for. -/
theorem runFrom_mapM (f : α → ExceptT ε (StateM σ) β) (as : List α) (s : σ) (log : List α) :
    (∃ bs s', Answers f s as bs s' ∧ runFrom (as.mapM f) s = (.ok bs, s') ∧
      runFrom (as.mapM (logged f)) (s, log) = (.ok bs, s', log ++ as)) ∨
    (∃ done a rest bs s₁ e s', as = done ++ a :: rest ∧ Answers f s done bs s₁ ∧
      runFrom (f a) s₁ = (.error e, s') ∧ runFrom (as.mapM f) s = (.error e, s') ∧
      runFrom (as.mapM (logged f)) (s, log) = (.error e, s', log ++ (done ++ [a]))) := by
  induction as generalizing s log with
  | nil => exact Or.inl ⟨[], s, .nil s, rfl, by rw [List.append_nil]; rfl⟩
  | cons a as ih =>
    rw [List.mapM_cons, List.mapM_cons]
    rcases h : runFrom (f a) s with ⟨e | b, s₁⟩
    · have hlog : runFrom (logged f a) (s, log) = (.error e, s₁, log ++ [a]) := by
        rw [runFrom_logged, h]
      exact Or.inr ⟨[], a, as, [], s, e, s₁, rfl, .nil s, h, runFrom_bind_of_error h,
        runFrom_bind_of_error hlog⟩
    · have hlog : runFrom (logged f a) (s, log) = (.ok b, s₁, log ++ [a]) := by
        rw [runFrom_logged, h]
      rw [runFrom_bind_of_ok h, runFrom_bind_of_ok hlog]
      rcases ih s₁ (log ++ [a]) with
        ⟨bs, s', hbs, hrun, hlogs⟩ | ⟨done, c, rest, bs, s₂, e, s', rfl, hbs, hc, hrun, hlogs⟩
      · refine Or.inl ⟨b :: bs, s', .cons h hbs, ?_, ?_⟩
        · rw [runFrom_bind_of_ok hrun, runFrom_pure]
        · rw [runFrom_bind_of_ok hlogs, runFrom_pure, List.append_assoc, List.singleton_append]
      · refine Or.inr ⟨a :: done, c, rest, b :: bs, s₂, e, s', rfl, .cons h hbs, hc, ?_, ?_⟩
        · exact runFrom_bind_of_error hrun
        · rw [runFrom_bind_of_error hlogs, List.append_assoc, List.singleton_append,
            List.cons_append]

/-- A list of answers is what making the step for every element gives. -/
theorem Answers.runFrom_mapM {f : α → ExceptT ε (StateM σ) β} {s s' : σ} {as : List α}
    {bs : List β} (h : Answers f s as bs s') : runFrom (as.mapM f) s = (.ok bs, s') := by
  induction h with
  | nil => rfl
  | cons h _ ih =>
    rw [List.mapM_cons, runFrom_bind_of_ok h, runFrom_bind_of_ok ih, runFrom_pure]

end Step

end CitationFilter
