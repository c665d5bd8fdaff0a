import CitationFilter.Proofs.Citation.Engines
import CitationFilter.Proofs.Engine.RequestLines

/-!
# The plan of a resolution

Which requests a resolution makes, and in which order, is fixed before the first one is sent:
`Resolution.plan` reads it off the document and the store. The engine only decides how far the plan
is carried out. It says nothing that changes a later request, and after a failure there is none.

`Step.Follows` is the judgement that carries this. It is about steps with a record, over any engine,
and it has one rule for each way of putting steps together, so that the plan of a resolution is put
together from the plans of its stages. Over a conversation the record is what was sent.
-/

namespace CitationFilter

/-! ## The plan -/

namespace Cluster

/-- The requests for clusters, each with the positions of those before it. -/
def requests (clusters : List Cluster) : List Request :=
  clusters.mapIdx fun k cluster ↦ .processCluster cluster ((clusters.take k).map position) []

theorem requestsAfter_eq_mapIdx (before : List Position) (clusters : List Cluster) :
    requestsAfter before clusters
      = clusters.mapIdx fun k cluster ↦
          .processCluster cluster (before ++ (clusters.take k).map position) [] := by
  induction clusters generalizing before with
  | nil => rfl
  | cons cluster rest ih =>
    rw [requestsAfter, ih, List.mapIdx_cons, List.take_zero, List.map_nil, List.append_nil]
    simp only [List.take_succ_cons, List.map_cons, List.append_assoc, List.singleton_append]

theorem requestsAfter_nil (clusters : List Cluster) :
    requestsAfter [] clusters = requests clusters := by
  rw [requestsAfter_eq_mapIdx, requests]
  simp only [List.nil_append]

end Cluster

namespace Resolution

/-- The requests that tell the engine about the items. -/
def registration (store : Store) (uncited : List String) : List Request :=
  [.setOutputFormat "html", .updateItems store.ids] ++
    if uncited.isEmpty then [] else [.updateUncitedItems uncited]

/-- The request for the bibliography, if there is a heading for it. -/
def bibliographyRequest (blocks : List Node) : List Request :=
  if blocks.any Bibliography.isHeading then [.makeBibliography] else []

/-- All requests of a resolution in order, if nothing fails. Without the uncited items there are
none, and if an item is missing from the store they end before the first cluster. -/
def plan (document : Document) (store : Store) : List Request :=
  match uncitedIds document store with
  | .error _ => []
  | .ok uncited =>
    registration store uncited ++
      if ∀ occurrence ∈ Occurrence.extract document.blocks, occurrence.itemId ∈ store.ids then
        Cluster.requests (Cluster.numberedFrom 0 (Occurrence.extract document.blocks)) ++
          bibliographyRequest document.blocks
      else []

end Resolution

/-! ## Following a plan -/

/-- The step makes the requests of the plan one after the other. If it succeeds it has made all of
them; if it fails it has made some first ones, of which at most the last has failed. -/
structure Step.Follows {σ α : Type} (plan : List Request) (p : Step (σ × List Call) α) : Prop where
  ok : ∀ ⦃t a t'⦄, runFrom p t = (.ok a, t') →
    ∃ calls, t'.2 = t.2 ++ calls ∧ calls.map Call.request = plan ∧ ∀ call ∈ calls, call.succeeded
  error : ∀ ⦃t e t'⦄, runFrom p t = (.error e, t') →
    ∃ calls, t'.2 = t.2 ++ calls ∧ calls.map Call.request <+: plan ∧
      ∀ call ∈ calls.dropLast, call.succeeded

namespace Step.Follows

variable {σ α β : Type} {plan rest : List Request}

theorem pure (a : α) : Follows [] (Pure.pure a : Step (σ × List Call) α) where
  ok t _ _ h := by
    cases h
    exact ⟨[], (List.append_nil _).symm, rfl, List.forall_mem_nil _⟩
  error _ _ _ h := by cases h

/-- A failure that no request is the reason of only stops the plan. -/
theorem lift_bind {x : Except Error α} {f : α → Step (σ × List Call) β}
    (hf : ∀ a, x = .ok a → Follows plan (f a)) : Follows plan (liftM x >>= f) := by
  rcases x with e | a
  · have hrun : ∀ t, runFrom (liftM (Except.error e : Except Error α) >>= f) t = (.error e, t) :=
      fun t ↦ runFrom_bind_of_error (runFrom_lift _ t)
    refine ⟨fun t b t' h ↦ ?_, fun t e' t' h ↦ ?_⟩
    · rw [hrun] at h
      cases h
    · rw [hrun] at h
      cases h
      exact ⟨[], (List.append_nil _).symm, List.nil_prefix, List.forall_mem_nil _⟩
  · have hrun : ∀ t, runFrom (liftM (Except.ok a : Except Error α) >>= f) t = runFrom (f a) t :=
      fun t ↦ runFrom_bind_of_ok (runFrom_lift _ t)
    refine ⟨fun t b t' h ↦ ?_, fun t e t' h ↦ ?_⟩
    · exact (hf a rfl).ok (hrun t ▸ h)
    · exact (hf a rfl).error (hrun t ▸ h)

theorem lift (x : Except Error α) : Follows [] (liftM x : Step (σ × List Call) α) := by
  have h : Follows [] ((liftM x : Step (σ × List Call) α) >>= Pure.pure) :=
    lift_bind fun a _ ↦ pure a
  rwa [bind_pure] at h

theorem bind {p : Step (σ × List Call) α} {f : α → Step (σ × List Call) β}
    (hp : Follows plan p) (hf : ∀ a, Follows rest (f a)) : Follows (plan ++ rest) (p >>= f) where
  ok t b t' h := by
    obtain ⟨a, t₁, hfirst, hsecond⟩ := runFrom_bind_eq_ok.mp h
    obtain ⟨calls, ht₁, hplan, hcalls⟩ := hp.ok hfirst
    obtain ⟨others, ht', hrest, hothers⟩ := (hf a).ok hsecond
    refine ⟨calls ++ others, by rw [ht', ht₁, List.append_assoc], ?_, ?_⟩
    · rw [List.map_append, hplan, hrest]
    · exact List.forall_mem_append.mpr ⟨hcalls, hothers⟩
  error t e t' h := by
    rcases runFrom_bind_eq_error.mp h with hfirst | ⟨a, t₁, hfirst, hsecond⟩
    · obtain ⟨calls, ht', hplan, hcalls⟩ := hp.error hfirst
      exact ⟨calls, ht', hplan.trans (List.prefix_append _ _), hcalls⟩
    · obtain ⟨calls, ht₁, hplan, hcalls⟩ := hp.ok hfirst
      obtain ⟨others, ht', hrest, hothers⟩ := (hf a).error hsecond
      refine ⟨calls ++ others, by rw [ht', ht₁, List.append_assoc], ?_, ?_⟩
      · rw [List.map_append, hplan]
        exact (List.prefix_append_right_inj plan).mpr hrest
      · -- the last call is one of the others, unless there are none of them
        cases others with
        | nil =>
          rw [List.append_nil]
          exact fun call hcall ↦ hcalls call (List.dropLast_subset _ hcall)
        | cons other others =>
          rw [List.dropLast_append_cons]
          exact List.forall_mem_append.mpr ⟨hcalls, hothers⟩

theorem recorded (request : Request) (answer : α → Answer) (step : Step σ α) :
    Follows [request] (Step.recorded request answer step) where
  ok := by
    rintro ⟨s, record⟩ a t' h
    obtain ⟨s', -, rfl⟩ := runFrom_recorded_eq_ok h
    exact ⟨[⟨request, .ok (answer a)⟩], rfl, rfl, List.forall_mem_singleton.mpr ⟨_, rfl⟩⟩
  error := by
    rintro ⟨s, record⟩ e t' h
    obtain ⟨s', -, rfl⟩ := runFrom_recorded_eq_error h
    exact ⟨[⟨request, .error e⟩], rfl, List.prefix_refl _, List.forall_mem_nil _⟩

end Step.Follows

/-! ## The stages of a resolution -/

section Stages

variable {σ : Type} (engine : Engine σ)

theorem Cluster.formatAfter_follows (before : List Position) (clusters : List Cluster) :
    Step.Follows (requestsAfter before clusters) (formatAfter engine.recorded before clusters) := by
  induction clusters generalizing before with
  | nil => exact .pure []
  | cons cluster rest ih =>
    have hfirst : Step.Follows [.processCluster cluster before []]
        (format engine.recorded before cluster) :=
      .bind (.recorded _ _ _) fun outcome ↦ .lift _
    have hrest : ∀ text, Step.Follows (requestsAfter (before ++ [cluster.position]) rest)
        (formatAfter engine.recorded (before ++ [cluster.position]) rest >>=
          fun texts ↦ Pure.pure (text :: texts)) := by
      intro text
      rw [← List.append_nil (requestsAfter _ _)]
      exact .bind (ih _) fun texts ↦ .pure _
    exact .bind hfirst hrest

theorem Bibliography.insert_follows (format : String) (blocks : List Node) :
    Step.Follows (Resolution.bibliographyRequest blocks)
      (insert engine.recorded format blocks) := by
  rw [insert, Resolution.bibliographyRequest, ← List.findIdx?_isSome, ← headingIndex?]
  cases headingIndex? blocks with
  | none => exact .pure _
  | some index => exact .bind (.recorded _ _ _) fun _ ↦ .pure _

namespace Resolution

theorem register_follows (store : Store) (uncited : List String) :
    Step.Follows (registration store uncited) (register engine.recorded store uncited) := by
  rw [registration, ← List.singleton_append, List.append_assoc]
  refine .bind (.recorded (.setOutputFormat "html") _ _) fun _ ↦
    .bind (.recorded (.updateItems store.ids) _ _) fun _ ↦ ?_
  cases uncited.isEmpty with
  | true => exact .pure ()
  | false => exact .recorded (.updateUncitedItems uncited) _ _

/-- Placing the texts makes no heading for the bibliography and removes none. -/
theorem bibliographyRequest_placed (format : String) (texts : List String) (blocks : List Node) :
    bibliographyRequest (Placement.placed format texts blocks) = bibliographyRequest blocks := by
  rw [bibliographyRequest, bibliographyRequest, ← List.findIdx?_isSome, ← List.findIdx?_isSome,
    ← Bibliography.headingIndex?, ← Bibliography.headingIndex?,
    Bibliography.headingIndex?_placed]

/-- Behind the registration the clusters are formatted, if all of their items are in the store, and
then the bibliography is made. -/
theorem formatting_follows (store : Store) (format : String) (document : Document) :
    Step.Follows
      (if ∀ occurrence ∈ Occurrence.extract document.blocks, occurrence.itemId ∈ store.ids then
        Cluster.requests (Cluster.numberedFrom 0 (Occurrence.extract document.blocks)) ++
          bibliographyRequest document.blocks
      else [])
      (do
        let clusters ← Cluster.build store (Occurrence.extract document.blocks)
        let texts ← Cluster.formatAll engine.recorded clusters
        let (blocks, _) ←
          Bibliography.insert engine.recorded format (Placement.placed format texts document.blocks)
        return { document with blocks } : Step (σ × List Call) Document) := by
  refine .lift_bind fun clusters hbuild ↦ ?_
  rcases Cluster.build_cases store (Occurrence.extract document.blocks) with
    ⟨hall, hok⟩ | ⟨-, id, herror⟩
  · -- the blocks with the texts have the same heading as the blocks of the document
    rw [if_pos hall, ← Except.ok.inj (hbuild.symm.trans hok), ← Cluster.requestsAfter_nil]
    refine .bind (Cluster.formatAfter_follows engine [] clusters) fun texts ↦ ?_
    rw [← bibliographyRequest_placed format texts, ← List.append_nil (bibliographyRequest _)]
    exact .bind (Bibliography.insert_follows engine format _) fun _ ↦ .pure _
  · rw [hbuild] at herror
    cases herror

/-- A resolution follows its plan, whatever the engine. -/
theorem resolve_follows (store : Store) (format : String) (document : Document) :
    Step.Follows (plan document store) (resolve engine.recorded store format document) := by
  rw [resolve_eq]
  refine .lift_bind fun uncited huncited ↦ ?_
  rw [plan, huncited]
  exact .bind (register_follows engine store uncited) fun _ ↦
    formatting_follows engine store format document

end Resolution

end Stages

/-! ## What an engine is asked for -/

namespace Resolution

theorem method_of_mem_registration {store : Store} {uncited : List String} {request : Request}
    (h : request ∈ registration store uncited) : request.method ≠ "processCitationCluster" := by
  rw [registration, List.mem_append] at h
  rcases h with h | h
  · rw [List.mem_cons, List.mem_singleton] at h
    rcases h with rfl | rfl <;> simp [Request.method]
  · split at h
    · cases h
    · rw [List.mem_singleton.mp h]
      simp [Request.method]

theorem method_of_mem_bibliographyRequest {blocks : List Node} {request : Request}
    (h : request ∈ bibliographyRequest blocks) : request.method ≠ "processCitationCluster" := by
  rw [bibliographyRequest] at h
  split at h
  · rw [List.mem_singleton.mp h]
    simp [Request.method]
  · cases h

theorem method_of_mem_plan {document : Document} {store : Store} {request : Request}
    (hmissing : ¬∀ occurrence ∈ Occurrence.extract document.blocks, occurrence.itemId ∈ store.ids)
    (h : request ∈ plan document store) : request.method ≠ "processCitationCluster" := by
  rw [plan] at h
  split at h
  · cases h
  · rw [if_neg hmissing, List.append_nil] at h
    exact method_of_mem_registration h

theorem isCluster_of_missing {document : Document} {store : Store} {record : List Call}
    (hplan : record.map Call.request <+: plan document store)
    (hmissing : ∃ occurrence ∈ Occurrence.extract document.blocks, occurrence.itemId ∉ store.ids) :
    ∀ call ∈ record, call.isCluster = false := by
  obtain ⟨occurrence, hoccurrence, hid⟩ := hmissing
  intro call hcall
  have hmem : call.request ∈ plan document store := hplan.subset (List.mem_map_of_mem hcall)
  exact Call.isCluster_eq_false_iff.mpr
    (method_of_mem_plan (fun hall ↦ hid (hall occurrence hoccurrence)) hmem)

/-- Over any conversation a resolution carries out its plan from the start and stops where a request
fails: only the last of the requests that were made may have failed, and only the line of that one
may be missing among those that were sent. A resolution that succeeds has carried out the whole
plan. Without the uncited items nothing is sent, and no cluster is sent unless all of the
occurrences are in the store. -/
theorem requests_follow_plan (store served : Store) (format : String) (document : Document)
    (script : Bytes) (room : Option Nat) :
    ∃ result conversation record,
      Step.runFrom (resolve (Conversation.engine served) store format document)
        (.start script room) = (result, conversation) ∧
      Step.runFrom (resolve (Conversation.engine served).recorded store format document)
        (.start script room, []) = (result, conversation, record) ∧
      record.map Call.request <+: plan document store ∧
      (∀ call ∈ record.dropLast, call.succeeded) ∧
      (∃ sent : List Request, conversation.outbox.requestLines = sent.map Request.line ∧
        record.dropLast.map Call.request <+: sent ∧ sent <+: record.map Call.request) ∧
      ((∃ resolved, result = .ok resolved) →
        conversation.outbox.requestLines = (plan document store).map Request.line) ∧
      ((∃ e, uncitedIds document store = .error e) → conversation.outbox.sent = []) ∧
      ((∃ occurrence ∈ Occurrence.extract document.blocks, occurrence.itemId ∉ store.ids) →
        ∀ call ∈ record, call.isCluster = false) := by
  rcases hrun : Step.runFrom (resolve (Conversation.engine served) store format document)
    (.start script room) with ⟨result, conversation⟩
  obtain ⟨record, hrecord⟩ := exists_record hrun
  have hstart : Conversation.UpToDate (.start script room, []) := rfl
  have hkeeps := resolve_related (Conversation.keepsRecord_congruence _)
    (Conversation.engine_keepsRecord served) store format document
  have hfollows := resolve_follows (Conversation.engine served) store format document
  have hnone : (∃ e, uncitedIds document store = .error e) → conversation.outbox.sent = [] := by
    rintro ⟨e, huncited⟩
    rw [resolve, huncited, Step.runFrom_bind_of_error (Step.runFrom_lift _ _)] at hrun
    cases hrun
    rfl
  cases result with
  | ok resolved =>
    obtain ⟨calls, hcalls, hplan, hsucceeded⟩ := hfollows.ok hrecord
    cases (List.nil_append calls).symm.trans hcalls.symm
    have hlines := hkeeps.ok hstart hrecord
    have hprefix : record.map Call.request <+: plan document store :=
      ⟨[], (List.append_nil _).trans hplan⟩
    refine ⟨.ok resolved, conversation, record, rfl, hrecord, hprefix, fun call hcall ↦ ?_,
      hlines.upToLast, fun _ ↦ ?_, hnone, isCluster_of_missing hprefix⟩
    · exact hsucceeded call (List.dropLast_subset _ hcall)
    · rw [← hplan]
      exact hlines
  | error e =>
    obtain ⟨calls, hcalls, hprefix, hsucceeded⟩ := hfollows.error hrecord
    cases (List.nil_append calls).symm.trans hcalls.symm
    refine ⟨.error e, conversation, record, rfl, hrecord, hprefix, hsucceeded,
      hkeeps.error hstart hrecord, ?_, hnone, isCluster_of_missing hprefix⟩
    rintro ⟨resolved, hresolved⟩
    cases hresolved

end Resolution

end CitationFilter
