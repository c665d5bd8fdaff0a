import CitationFilter.Engine.Request
import CitationFilter.Proofs.Engine.Related

/-!
# What passed between the filter and an engine

An engine is a black box with a state, and what it was asked cannot be read off that state. So
`Engine.recorded` puts a record beside it: the same engine, which also writes down every request
with the answer it got. Statements about the requests of a run are statements about this record.

Recording has to be harmless: an engine and its recorded form make alike steps
(`Engine.recorded_alike`), so every program that only makes requests ends alike with both.
-/

namespace CitationFilter

/-! ## The record -/

/-- What an engine answers to a request that it fulfils. -/
inductive Answer where
  | done
  | outcome (outcome : Outcome)
  | entries (texts : List String)
deriving DecidableEq, Repr

/-- A request with what came back for it. -/
structure Call where
  /-- What was asked. -/
  request : Request
  /-- The answer, or why there is none. -/
  answer : Except Error Answer

namespace Call

/-- Whether the request was fulfilled. -/
def succeeded (call : Call) : Prop := ∃ answer, call.answer = .ok answer

/-- Whether the call asks for a cluster to be formatted. -/
def isCluster (call : Call) : Bool := call.request.method == "processCitationCluster"

theorem isCluster_eq_false_iff {call : Call} :
    call.isCluster = false ↔ call.request.method ≠ "processCitationCluster" :=
  beq_eq_false_iff_ne

theorem filter_isCluster_eq_nil {calls : List Call}
    (h : ∀ request ∈ calls.map Call.request, request.method ≠ "processCitationCluster") :
    calls.filter isCluster = [] := by
  refine List.filter_eq_nil_iff.mpr fun call hcall ↦ ?_
  rw [isCluster_eq_false_iff.mpr (h _ (List.mem_map_of_mem hcall))]
  exact Bool.false_ne_true

/-- The call that comes back with an outcome. -/
def answered (request : Request) (outcome : Outcome) : Call := ⟨request, .ok (.outcome outcome)⟩

end Call

section Recorded

variable {σ α : Type}

/-- The step of a request, which also writes the call down. -/
def Step.recorded (request : Request) (answer : α → Answer) (step : Step σ α) :
    Step (σ × List Call) α :=
  ExceptT.mk fun (s, record) ↦
    let (result, s') := runFrom step s
    (result, s', record ++ [⟨request, result.map answer⟩])

/-- The engine with a record of what it is asked and what it answers. -/
def Engine.recorded (engine : Engine σ) : Engine (σ × List Call) where
  setOutputFormat format :=
    Step.recorded (.setOutputFormat format) (fun _ ↦ .done) (engine.setOutputFormat format)
  updateItems ids := Step.recorded (.updateItems ids) (fun _ ↦ .done) (engine.updateItems ids)
  updateUncitedItems ids :=
    Step.recorded (.updateUncitedItems ids) (fun _ ↦ .done) (engine.updateUncitedItems ids)
  processCluster cluster before after :=
    Step.recorded (.processCluster cluster before after) .outcome
      (engine.processCluster cluster before after)
  makeBibliography := Step.recorded .makeBibliography .entries engine.makeBibliography

theorem Step.runFrom_recorded (request : Request) (answer : α → Answer) (step : Step σ α) (s : σ)
    (record : List Call) :
    runFrom (recorded request answer step) (s, record)
      = ((runFrom step s).1, (runFrom step s).2,
          record ++ [⟨request, (runFrom step s).1.map answer⟩]) := rfl

theorem Step.runFrom_recorded_eq_ok {request : Request} {answer : α → Answer} {step : Step σ α}
    {s : σ} {record : List Call} {a : α} {t : σ × List Call}
    (h : runFrom (recorded request answer step) (s, record) = (.ok a, t)) :
    ∃ s', runFrom step s = (.ok a, s') ∧ t = (s', record ++ [⟨request, .ok (answer a)⟩]) := by
  rw [runFrom_recorded] at h
  rcases hstep : runFrom step s with ⟨e | a', s'⟩
  · rw [hstep] at h
    cases h
  · rw [hstep] at h
    cases h
    exact ⟨s', rfl, rfl⟩

theorem Step.runFrom_recorded_eq_error {request : Request} {answer : α → Answer}
    {step : Step σ α} {s : σ} {record : List Call} {e : Error} {t : σ × List Call}
    (h : runFrom (recorded request answer step) (s, record) = (.error e, t)) :
    ∃ s', runFrom step s = (.error e, s') ∧ t = (s', record ++ [⟨request, .error e⟩]) := by
  rw [runFrom_recorded] at h
  rcases hstep : runFrom step s with ⟨e' | a, s'⟩
  · rw [hstep] at h
    cases h
    exact ⟨s', rfl, rfl⟩
  · rw [hstep] at h
    cases h

theorem Step.recorded_alike (request : Request) (answer : α → Answer) (step : Step σ α) :
    Alike (fun s t ↦ t.1 = s) step (recorded request answer step) := by
  rintro s ⟨_, record⟩ rfl
  exact ⟨rfl, rfl⟩

/-- Recording changes nothing. -/
theorem Engine.recorded_alike (engine : Engine σ) :
    Related (Step.Alike fun s t ↦ t.1 = s) engine engine.recorded where
  setOutputFormat _ := Step.recorded_alike _ _ _
  updateItems _ := Step.recorded_alike _ _ _
  updateUncitedItems _ := Step.recorded_alike _ _ _
  processCluster _ _ _ := Step.recorded_alike _ _ _
  makeBibliography := Step.recorded_alike _ _ _

theorem Step.Alike.exists_record {p : Step σ α} {q : Step (σ × List Call) α}
    (h : Alike (fun s t ↦ t.1 = s) p q) {s s' : σ} {result : Except Error α}
    (hrun : runFrom p s = (result, s')) : ∃ record, runFrom q (s, []) = (result, s', record) := by
  obtain ⟨hresult, hstate⟩ := h (s := s) (t := (s, [])) rfl
  rw [hrun] at hresult hstate
  exact ⟨(runFrom q (s, [])).2.2, Prod.ext hresult.symm (Prod.ext hstate rfl)⟩

end Recorded

end CitationFilter
