import CitationFilter.Proofs.Citation.Engines

/-!
# Which update gives a cluster its text

An engine answers a cluster with updates, and an update says with its index which cluster it is for:
a new cluster may change how an earlier one reads. The text of the new cluster is looked for by
place, though. It is that of the second update if the bibliography did not change, unless it is
empty, and otherwise that of the first; the indices are not looked at.

So whether the text is for the right cluster is up to the order in which an engine lists its
updates. `Outcome.LeadsWith` is the condition on that order, and it is exact: if it fails, the
texts can be such that the one that is taken is only to be found in updates for other clusters.
-/

namespace CitationFilter

namespace Outcome

/-! ## The update that counts -/

/-- The update that counts: the second one if the bibliography did not change and the text is not
empty, otherwise the first. -/
def chosen? (outcome : Outcome) : Option Update :=
  if outcome.bibliographyChanged then outcome.updates[0]?
  else (outcome.updates[1]?.filter (·.text ≠ "")).or outcome.updates[0]?

variable {outcome : Outcome}

theorem text_eq (outcome : Outcome) :
    outcome.text = outcome.chosen?.elim (.error (.engineProtocol .noText)) (.ok ·.text) := by
  obtain ⟨changed, updates⟩ := outcome
  match updates with
  | [] => cases changed <;> rfl
  | [first] => cases changed <;> rfl
  | first :: second :: rest =>
    cases changed with
    | true => rfl
    | false =>
      by_cases hsecond : second.text = ""
      · simp [text, chosen?, Option.filter_some, hsecond]
      · simp [text, chosen?, Option.filter_some, hsecond]

theorem text_of_chosen? {update : Update} (h : outcome.chosen? = some update) :
    outcome.text = .ok update.text := by
  rw [text_eq, h]
  rfl

theorem exists_chosen?_of_text {text : String} (h : outcome.text = .ok text) :
    ∃ update, outcome.chosen? = some update ∧ update.text = text := by
  rw [text_eq] at h
  cases hchosen : outcome.chosen? with
  | none =>
    rw [hchosen] at h
    cases h
  | some update =>
    rw [hchosen] at h
    cases h
    exact ⟨update, rfl, rfl⟩

theorem mem_of_chosen? {update : Update} (h : outcome.chosen? = some update) :
    update ∈ outcome.updates := by
  rw [chosen?] at h
  split at h
  · exact List.mem_of_getElem? h
  · rcases Option.or_eq_some_iff.mp h with hsecond | ⟨-, hfirst⟩
    · exact List.mem_of_getElem? (Option.filter_eq_some_iff.mp hsecond).1
    · exact List.mem_of_getElem? hfirst

theorem exists_text_of_ne_nil (h : outcome.updates ≠ []) : ∃ text, outcome.text = .ok text := by
  obtain ⟨changed, updates⟩ := outcome
  match updates with
  | [] => exact absurd rfl h
  | [first] => exact ⟨first.text, rfl⟩
  | first :: second :: rest =>
    rw [text]
    dsimp only
    split
    · exact ⟨_, rfl⟩
    · exact ⟨_, rfl⟩

theorem exists_texts {outcomes : List Outcome} (h : ∀ outcome ∈ outcomes, outcome.updates ≠ []) :
    ∃ texts : List String, outcomes.map text = texts.map .ok := by
  induction outcomes with
  | nil => exact ⟨[], rfl⟩
  | cons outcome outcomes ih =>
    obtain ⟨hfirst, hrest⟩ := List.forall_mem_cons.mp h
    obtain ⟨text, htext⟩ := exists_text_of_ne_nil hfirst
    obtain ⟨texts, htexts⟩ := ih hrest
    exact ⟨text :: texts, by rw [List.map_cons, List.map_cons, htext, htexts]⟩

/-! ## The order of the updates -/

/-- The first update is for this cluster, and so is the second one, if there is one, or the
bibliography changed. This does not depend on the texts. -/
def LeadsWith (i : Nat) (changed : Bool) (indices : List Nat) : Prop :=
  indices[0]? = some i ∧ (changed = true ∨ ∀ j ∈ indices[1]?, j = i)

theorem index_of_leadsWith {i : Nat} {update : Update}
    (hleads : LeadsWith i outcome.bibliographyChanged (outcome.updates.map Update.index))
    (h : outcome.chosen? = some update) : update.index = i := by
  obtain ⟨hfirst, hsecond⟩ := hleads
  rw [List.getElem?_map] at hfirst hsecond
  have hfirst_index : ∀ first ∈ outcome.updates[0]?, first.index = i := by
    intro first hmem
    rw [Option.mem_def.mp hmem] at hfirst
    exact Option.some.inj hfirst
  rw [chosen?] at h
  by_cases hchanged : outcome.bibliographyChanged = true
  · rw [if_pos hchanged] at h
    exact hfirst_index update h
  · rw [if_neg hchanged] at h
    rcases Option.or_eq_some_iff.mp h with h | ⟨-, h⟩
    · have hmem := (Option.filter_eq_some_iff.mp h).1
      have hindices := hsecond.resolve_left hchanged
      rw [hmem] at hindices
      exact hindices update.index rfl
    · exact hfirst_index update h

/-- The outcome of this form in which exactly the updates for other clusters have a text. -/
def adverse (i : Nat) (changed : Bool) (indices : List Nat) : Outcome where
  bibliographyChanged := changed
  updates := indices.map fun j ↦ ⟨j, if j = i then "" else "other"⟩

theorem index_adverse (i : Nat) (changed : Bool) (indices : List Nat) :
    (adverse i changed indices).updates.map Update.index = indices := by
  simp [adverse, Function.comp_def]

theorem text_of_mem_adverse {i : Nat} {changed : Bool} {indices : List Nat} {update : Update}
    (h : update ∈ (adverse i changed indices).updates) :
    update.text = if update.index = i then "" else "other" := by
  obtain ⟨j, -, rfl⟩ := List.mem_map.mp h
  rfl

/-- Unless the updates lead with the cluster, the one that counts here is for another cluster. -/
theorem exists_chosen?_adverse {i : Nat} {changed : Bool} {indices : List Nat} (hmem : i ∈ indices)
    (hleads : ¬LeadsWith i changed indices) :
    ∃ update, (adverse i changed indices).chosen? = some update ∧ update.index ≠ i := by
  -- the condition speaks of two places only, and so do the cases
  match indices, changed with
  | first :: rest, true =>
    have hfirst : first ≠ i := by
      rintro rfl
      exact hleads ⟨rfl, Or.inl rfl⟩
    exact ⟨⟨first, _⟩, rfl, hfirst⟩
  | [first], false =>
    have hfirst : first = i := (List.mem_singleton.mp hmem).symm
    exact absurd ⟨congrArg some hfirst, Or.inr fun _ h ↦ nomatch h⟩ hleads
  | first :: second :: rest, false =>
    by_cases hsecond : second = i
    · have hfirst : first ≠ i := by
        rintro rfl
        exact hleads ⟨rfl, Or.inr fun j hj ↦ (Option.some.inj hj).symm.trans hsecond⟩
      exact ⟨⟨first, "other"⟩, by simp [adverse, chosen?, Option.filter_some, *], hfirst⟩
    · exact ⟨⟨second, "other"⟩, by simp [adverse, chosen?, Option.filter_some, hsecond], hsecond⟩

/-- The text of a cluster is that of an update for it, whatever the texts are, exactly if the
updates lead with it. -/
theorem leadsWith_iff_forall_text {i : Nat} {changed : Bool} {indices : List Nat}
    (hmem : i ∈ indices) :
    LeadsWith i changed indices ↔
      ∀ outcome : Outcome, outcome.bibliographyChanged = changed →
        outcome.updates.map Update.index = indices →
        ∃ own ∈ outcome.updates, own.index = i ∧ outcome.text = .ok own.text := by
  constructor
  · rintro hleads outcome rfl rfl
    have hne : outcome.updates ≠ [] := by
      rintro hnil
      rw [hnil] at hmem
      cases hmem
    obtain ⟨text, htext⟩ := exists_text_of_ne_nil hne
    obtain ⟨own, hchosen, -⟩ := exists_chosen?_of_text htext
    exact ⟨own, mem_of_chosen? hchosen, index_of_leadsWith hleads hchosen, text_of_chosen? hchosen⟩
  · intro hall
    -- the adverse texts tell the updates for this cluster from all others
    by_contra hleads
    obtain ⟨update, hchosen, hother⟩ := exists_chosen?_adverse hmem hleads
    obtain ⟨own, hown, hindex, htext⟩ :=
      hall (adverse i changed indices) rfl (index_adverse i changed indices)
    have heq := (text_of_chosen? hchosen).symm.trans htext
    rw [text_of_mem_adverse hown, text_of_mem_adverse (mem_of_chosen? hchosen), if_pos hindex,
      if_neg hother] at heq
    exact absurd (Except.ok.inj heq) (by decide)

end Outcome

/-! ## The texts of a run -/

namespace Cluster

section Processed

variable {σ : Type}

/-- The engine, given clusters one after the other, each with the positions of those before it,
answers them with these outcomes. -/
inductive Processed (engine : Engine σ) :
    List Position → σ → List Cluster → List Outcome → σ → Prop
  | nil (before : List Position) (s : σ) : Processed engine before s [] [] s
  | cons {before : List Position} {s s₁ s' : σ} {cluster : Cluster} {outcome : Outcome}
      {rest : List Cluster} {outcomes : List Outcome} :
      Step.runFrom (engine.processCluster cluster before []) s = (.ok outcome, s₁) →
      Processed engine (before ++ [cluster.position]) s₁ rest outcomes s' →
      Processed engine before s (cluster :: rest) (outcome :: outcomes) s'

variable {engine : Engine σ} {before : List Position} {clusters : List Cluster} {s s' : σ}
  {texts : List String}

/-- Formatting succeeds exactly if the engine answers every cluster and there is a text in every
answer. -/
theorem runFrom_formatAfter_eq_ok :
    Step.runFrom (formatAfter engine before clusters) s = (.ok texts, s') ↔
      ∃ outcomes, Processed engine before s clusters outcomes s' ∧
        outcomes.map Outcome.text = texts.map .ok := by
  induction clusters generalizing before s texts with
  | nil =>
    constructor
    · rintro ⟨⟩
      exact ⟨[], .nil _ _, rfl⟩
    · rintro ⟨_, ⟨⟩, htexts⟩
      cases texts with
      | nil => rfl
      | cons text texts => cases htexts
  | cons cluster rest ih =>
    rw [formatAfter, Step.runFrom_bind_eq_ok]
    constructor
    · rintro ⟨text, s₁, hfirst, h⟩
      obtain ⟨others, _, hothers, h⟩ := Step.runFrom_bind_eq_ok.mp h
      cases h
      obtain ⟨outcome, _, houtcome, hread⟩ := Step.runFrom_bind_eq_ok.mp hfirst
      obtain ⟨htext, rfl⟩ := Step.runFrom_lift_eq_ok.mp hread
      obtain ⟨outcomes, hprocessed, htexts⟩ := ih.mp hothers
      refine ⟨outcome :: outcomes, .cons houtcome hprocessed, ?_⟩
      rw [List.map_cons, List.map_cons, htext, htexts]
    · rintro ⟨_, hprocessed, htexts⟩
      cases hprocessed with
      | cons houtcome hprocessed =>
        cases texts with
        | nil => cases htexts
        | cons text texts =>
          injection htexts with htext htexts
          have hfirst : Step.runFrom (format engine before cluster) s = (.ok text, _) :=
            Step.runFrom_bind_eq_ok.mpr ⟨_, _, houtcome, Step.runFrom_lift_eq_ok.mpr ⟨htext, rfl⟩⟩
          have hrest := ih.mpr ⟨_, hprocessed, htexts⟩
          exact ⟨text, _, hfirst, Step.runFrom_bind_eq_ok.mpr ⟨texts, _, hrest, rfl⟩⟩

/-- The texts of a run are those of the updates that count. If every answer has an update in it,
there are texts. A text is that of an update for its own cluster if the updates lead with that
cluster, and for an answer in which there is such an update this is exactly the condition under
which it is so whatever the texts are. -/
theorem texts_of_chosen_updates (engine : Engine σ) (clusters : List Cluster) (s : σ) :
    (∀ outcomes s', Processed engine [] s clusters outcomes s' →
      (∀ outcome ∈ outcomes, outcome.updates ≠ []) →
      ∃ texts, Step.runFrom (formatAll engine clusters) s = (.ok texts, s')) ∧
    (∀ texts s', Step.runFrom (formatAll engine clusters) s = (.ok texts, s') →
      ∃ outcomes, Processed engine [] s clusters outcomes s' ∧
        ∀ i (outcome : Outcome), outcomes[i]? = some outcome →
          ∃ update ∈ outcome.updates, outcome.chosen? = some update ∧
            texts[i]? = some update.text ∧
            (Outcome.LeadsWith i outcome.bibliographyChanged (outcome.updates.map Update.index) →
              update.index = i)) ∧
    ∀ (i : Nat) (changed : Bool) (indices : List Nat), i ∈ indices →
      (Outcome.LeadsWith i changed indices ↔
        ∀ outcome : Outcome, outcome.bibliographyChanged = changed →
          outcome.updates.map Update.index = indices →
          ∃ own ∈ outcome.updates, own.index = i ∧ outcome.text = .ok own.text) := by
  refine ⟨?_, ?_, fun i changed indices ↦ Outcome.leadsWith_iff_forall_text⟩
  · intro outcomes s' hprocessed hne
    obtain ⟨texts, htexts⟩ := Outcome.exists_texts hne
    exact ⟨texts, runFrom_formatAfter_eq_ok.mpr ⟨outcomes, hprocessed, htexts⟩⟩
  · intro texts s' h
    obtain ⟨outcomes, hprocessed, htexts⟩ := runFrom_formatAfter_eq_ok.mp h
    refine ⟨outcomes, hprocessed, fun i outcome hi ↦ ?_⟩
    have hat : (outcomes.map Outcome.text)[i]? = (texts.map Except.ok)[i]? := by rw [htexts]
    rw [List.getElem?_map, List.getElem?_map, hi] at hat
    obtain ⟨text, htext, hok⟩ := Option.map_eq_some_iff.mp hat.symm
    obtain ⟨update, hchosen, hupdate⟩ := Outcome.exists_chosen?_of_text hok.symm
    refine ⟨update, Outcome.mem_of_chosen? hchosen, hchosen, ?_, fun hleads ↦ ?_⟩
    · rw [htext, hupdate]
    · exact Outcome.index_of_leadsWith hleads hchosen

end Processed

end Cluster

/-- An engine that answers the first cluster with its text, and every later one with new texts for
the cluster before it and for itself. -/
def Engine.rerendering : Engine Unit where
  setOutputFormat _ := pure ()
  updateItems _ := pure ()
  updateUncitedItems _ := pure ()
  processCluster cluster _ _ :=
    match cluster.noteIndex with
    | 0 => pure ⟨true, [⟨0, cluster.id⟩]⟩
    | n + 1 => pure ⟨true, [⟨n, "earlier"⟩, ⟨n + 1, cluster.id⟩]⟩
  makeBibliography := pure []

namespace Cluster

/-- Although there is an update for a cluster, its text may be that of another one. -/
theorem text_of_other_cluster :
    ¬∀ (engine : Engine Unit) (clusters : List Cluster) (s s' : Unit) (texts : List String)
      (outcomes : List Outcome),
      Step.runFrom (formatAll engine clusters) s = (.ok texts, s') →
      Processed engine [] s clusters outcomes s' →
      ∀ (i : Nat) (outcome : Outcome) (text : String), outcomes[i]? = some outcome →
        (∃ own ∈ outcome.updates, own.index = i) → texts[i]? = some text →
        ∃ own ∈ outcome.updates, own.index = i ∧ own.text = text := by
  intro hclaim
  have hprocessed : Processed .rerendering [] ()
      (numberedFrom 0 [⟨"a", none⟩, ⟨"b", none⟩])
      [⟨true, [⟨0, "a_0"⟩]⟩, ⟨true, [⟨0, "earlier"⟩, ⟨1, "b_1"⟩]⟩] () :=
    .cons rfl (.cons rfl (.nil _ _))
  have hrun : Step.runFrom (formatAll .rerendering (numberedFrom 0 [⟨"a", none⟩, ⟨"b", none⟩])) ()
      = (.ok ["a_0", "earlier"], ()) := rfl
  obtain ⟨own, hown, hindex, htext⟩ :=
    hclaim _ _ _ _ _ _ hrun hprocessed 1 _ "earlier" rfl ⟨⟨1, "b_1"⟩, by decide, rfl⟩ rfl
  revert own
  decide

end Cluster

end CitationFilter
