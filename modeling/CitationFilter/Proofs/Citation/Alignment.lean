import CitationFilter.Citation.Resolution
import CitationFilter.Proofs.Citation.Placement
import CitationFilter.Proofs.Except
import CitationFilter.Proofs.Library.Store

/-!
# Occurrences, clusters and texts are equally many

One occurrence makes one cluster, one cluster comes back as one text, and the rewriter uses one text
for one citation. So the queue of the texts holds exactly what the rewriter takes from it: the stage
that fills the texts in cannot fail, and `resolve_eq` writes a resolution without it. All later
facts about resolutions start from that form.
-/

namespace CitationFilter

/-! ## One cluster for each occurrence -/

namespace Cluster

/-- The clusters of occurrences, numbered in order from some number on. -/
def numberedFrom (start : Nat) (occurrences : List Occurrence) : List Cluster :=
  (occurrences.zipIdx start).map fun (occurrence, i) ↦ ofOccurrence occurrence i

theorem length_numberedFrom (start : Nat) (occurrences : List Occurrence) :
    (numberedFrom start occurrences).length = occurrences.length := by
  rw [numberedFrom, List.length_map, List.length_zipIdx]

theorem buildFrom_eq (store : Store) (start : Nat) (occurrences : List Occurrence) :
    buildFrom store start occurrences
      = (occurrences.mapM fun occurrence ↦ store.retrieve occurrence.itemId).map
          fun _ ↦ numberedFrom start occurrences := by
  induction occurrences generalizing start with
  | nil => rfl
  | cons occurrence rest ih =>
    rw [buildFrom, ih, List.mapM_cons]
    generalize (rest.mapM fun occurrence ↦ store.retrieve occurrence.itemId) = others
    rcases store.retrieve occurrence.itemId with e | item
    · rfl
    · rcases others with e | items
      · rfl
      · rfl

variable {store : Store} {occurrences : List Occurrence}

theorem build_eq_ok_iff {clusters : List Cluster} :
    build store occurrences = .ok clusters ↔
      (∀ occurrence ∈ occurrences, occurrence.itemId ∈ store.ids) ∧
        clusters = numberedFrom 0 occurrences := by
  have hstored : (∃ items, (occurrences.mapM fun occurrence ↦ store.retrieve occurrence.itemId)
      = .ok items) ↔ ∀ occurrence ∈ occurrences, occurrence.itemId ∈ store.ids := by
    simp only [Except.exists_mapM_eq_ok_iff, Store.exists_retrieve_iff]
  rw [build, buildFrom_eq, Except.map_eq_ok, exists_and_right, hstored, eq_comm (a := clusters)]

/-- If an item is not in the store there are no clusters at all, and the first such item is the one
that is reported. -/
theorem build_eq_error_iff {e : Error} :
    build store occurrences = .error e ↔
      ∃ before missing after, occurrences = before ++ missing :: after ∧
        (∀ occurrence ∈ before, occurrence.itemId ∈ store.ids) ∧
        missing.itemId ∉ store.ids ∧ e = .itemNotFound missing.itemId := by
  rw [build, buildFrom_eq, Except.map_eq_error, Except.mapM_eq_error_iff]
  simp only [Store.exists_retrieve_iff, Store.retrieve_eq_error_iff]

theorem build_cases (store : Store) (occurrences : List Occurrence) :
    ((∀ occurrence ∈ occurrences, occurrence.itemId ∈ store.ids) ∧
      build store occurrences = .ok (numberedFrom 0 occurrences)) ∨
    ((¬∀ occurrence ∈ occurrences, occurrence.itemId ∈ store.ids) ∧
      ∃ id, build store occurrences = .error (.itemNotFound id)) := by
  cases hbuild : build store occurrences with
  | ok clusters =>
    obtain ⟨hall, rfl⟩ := build_eq_ok_iff.mp hbuild
    exact Or.inl ⟨hall, rfl⟩
  | error e =>
    obtain ⟨before, missing, after, rfl, -, hmissing, rfl⟩ := build_eq_error_iff.mp hbuild
    exact Or.inr ⟨fun hall ↦ hmissing (hall missing (by simp)), missing.itemId, rfl⟩

/-! ## One text for each cluster -/

theorem length_of_formatAfter {σ : Type} {engine : Engine σ} {before : List Position}
    {clusters : List Cluster} {s s' : σ} {texts : List String}
    (h : Step.runFrom (formatAfter engine before clusters) s = (.ok texts, s')) :
    texts.length = clusters.length := by
  induction clusters generalizing before s texts with
  | nil =>
    cases h
    rfl
  | cons cluster rest ih =>
    rw [formatAfter, Step.runFrom_bind_eq_ok] at h
    obtain ⟨text, s₁, -, h⟩ := h
    rw [Step.runFrom_bind_eq_ok] at h
    obtain ⟨others, s₂, hothers, h⟩ := h
    cases h
    rw [List.length_cons, List.length_cons, ih hothers]

end Cluster

/-! ## A resolution without the stage that cannot fail -/

namespace Resolution

variable {σ : Type}

theorem fill_of_length {format : String} {texts : List String} {blocks : List Node}
    (h : texts.length = (Occurrence.extract blocks).length) :
    fill format texts blocks = .ok (Placement.placed format texts blocks) := by
  rw [fill, Placement.run_eq format blocks (Nat.le_of_eq h.symm), ← h, List.drop_length]
  rfl

/-- The texts fit the blocks, so they can be placed without asking whether they do. -/
theorem resolve_eq (engine : Engine σ) (store : Store) (format : String) (document : Document) :
    resolve engine store format document = do
      let uncited ← uncitedIds document store
      register engine store uncited
      let clusters ← Cluster.build store (Occurrence.extract document.blocks)
      let texts ← Cluster.formatAll engine clusters
      let (blocks, _) ←
        Bibliography.insert engine format (Placement.placed format texts document.blocks)
      return { document with blocks } := by
  refine funext fun s ↦ ?_
  -- the two sides are the same up to the texts, and by then there is one text for each occurrence
  refine Step.runFrom_bind_congr fun uncited s₁ _ ↦ Step.runFrom_bind_congr fun _ s₂ _ ↦
    Step.runFrom_bind_congr fun clusters s₃ hclusters ↦
      Step.runFrom_bind_congr fun texts s₄ htexts ↦ ?_
  have hlength : texts.length = (Occurrence.extract document.blocks).length := by
    rw [Cluster.length_of_formatAfter htexts,
      (Cluster.build_eq_ok_iff.mp (Prod.mk.inj hclusters).1).2, Cluster.length_numberedFrom]
  rw [fill_of_length hlength]
  exact Step.runFrom_bind_of_ok (Step.runFrom_lift _ _)

/-- The stages of a resolution that succeeds. -/
theorem exists_stages {engine : Engine σ} {store : Store} {format : String}
    {document result : Document} {s s' : σ}
    (h : Step.runFrom (resolve engine store format document) s = (.ok result, s')) :
    ∃ uncited s₁ texts s₂ blocks n,
      Step.runFrom (register engine store uncited) s = (.ok (), s₁) ∧
      Step.runFrom
        (Cluster.formatAll engine (Cluster.numberedFrom 0 (Occurrence.extract document.blocks))) s₁
          = (.ok texts, s₂) ∧
      Step.runFrom
        (Bibliography.insert engine format (Placement.placed format texts document.blocks)) s₂
          = (.ok (blocks, n), s') ∧
      result = { document with blocks } := by
  rw [resolve_eq, Step.runFrom_bind_eq_ok] at h
  obtain ⟨uncited, _, huncited, h⟩ := h
  obtain ⟨-, rfl⟩ := Step.runFrom_lift_eq_ok.mp huncited
  obtain ⟨_, s₁, hregister, h⟩ := Step.runFrom_bind_eq_ok.mp h
  obtain ⟨clusters, _, hlift, h⟩ := Step.runFrom_bind_eq_ok.mp h
  obtain ⟨hbuild, rfl⟩ := Step.runFrom_lift_eq_ok.mp hlift
  obtain ⟨texts, s₂, hformat, h⟩ := Step.runFrom_bind_eq_ok.mp h
  obtain ⟨⟨blocks, n⟩, _, hinsert, h⟩ := Step.runFrom_bind_eq_ok.mp h
  cases h
  rw [(Cluster.build_eq_ok_iff.mp hbuild).2] at hformat
  exact ⟨uncited, s₁, texts, s₂, blocks, n, hregister, hformat, hinsert, rfl⟩

end Resolution

end CitationFilter
