import CitationFilter.Engine.Basic
import CitationFilter.Proofs.Step

/-!
# Programs over related engines

A program over an engine is put together from its requests, from computations that do not look at
the state, and from sequences of these. So a relation between steps that respects the last two holds
of the whole program over two engines as soon as it holds of their requests. `Step.Congruence` says
what respecting means, and `Engine.Related` that the requests are related.

Two such relations are used everywhere. `Step.Alike` says that two steps end alike from related
states, and `Step.FailsWith`, which is about one step only, says how a step fails.
-/

namespace CitationFilter

namespace Step

variable {σ τ : Type}

/-- The relation is respected by computations that fail with an error in `E` if they fail, and by
sequences. -/
structure Congruence (E : Error → Prop) (J : ∀ {α : Type}, Step σ α → Step τ α → Prop) : Prop where
  lift : ∀ {α : Type} {x : Except Error α}, (∀ e, x = .error e → E e) → J (liftM x) (liftM x)
  bind : ∀ {α β : Type} {p : Step σ α} {q : Step τ α} {f : α → Step σ β} {g : α → Step τ β},
    J p q → (∀ a, J (f a) (g a)) → J (p >>= f) (q >>= g)

theorem Congruence.pure {E : Error → Prop} {J : ∀ {α : Type}, Step σ α → Step τ α → Prop}
    (hJ : Congruence E J) {α : Type} (a : α) : J (Pure.pure a) (Pure.pure a) :=
  hJ.lift (x := .ok a) (by rintro _ ⟨⟩)

/-- From states that are related by `R` the two steps have the same result, and they leave states
that are related by `R`. -/
def Alike {α : Type} (R : σ → τ → Prop) (p : Step σ α) (q : Step τ α) : Prop :=
  ∀ ⦃s t⦄, R s t → (runFrom p s).1 = (runFrom q t).1 ∧ R (runFrom p s).2 (runFrom q t).2

theorem alike_congruence (E : Error → Prop) (R : σ → τ → Prop) : Congruence E (Alike R) where
  lift _ _ _ h := ⟨rfl, h⟩
  bind {α β p q f g} hp hf := by
    intro s t h
    obtain ⟨hresult, hstate⟩ := hp h
    rw [runFrom_bind, runFrom_bind]
    rcases hps : runFrom p s with ⟨x, s₁⟩
    rcases hqt : runFrom q t with ⟨y, t₁⟩
    rw [hps, hqt] at hresult hstate
    cases hresult
    cases x with
    | error e => exact ⟨rfl, hstate⟩
    | ok a => exact hf a hstate

theorem failsWith_congruence {E : Error → Prop} {P : Error → σ → Prop} (h : ∀ e s, E e → P e s) :
    Congruence E fun (p _ : Step σ _) ↦ FailsWith P p where
  lift hx := .lift fun e he s ↦ h e s (hx e he)
  bind hp hf := hp.bind hf

end Step

/-- Every request is made by related steps. -/
structure Engine.Related {σ τ : Type} (J : ∀ {α : Type}, Step σ α → Step τ α → Prop)
    (e₁ : Engine σ) (e₂ : Engine τ) : Prop where
  setOutputFormat : ∀ format, J (e₁.setOutputFormat format) (e₂.setOutputFormat format)
  updateItems : ∀ ids, J (e₁.updateItems ids) (e₂.updateItems ids)
  updateUncitedItems : ∀ ids, J (e₁.updateUncitedItems ids) (e₂.updateUncitedItems ids)
  processCluster : ∀ cluster before after,
    J (e₁.processCluster cluster before after) (e₂.processCluster cluster before after)
  makeBibliography : J e₁.makeBibliography e₂.makeBibliography

end CitationFilter
