import CitationFilter.Engine.Conversation
import CitationFilter.Proofs.Citation.Alignment
import CitationFilter.Proofs.Engine.Record
import CitationFilter.Proofs.Except

/-!
# What a resolution owes to its engine

A resolution knows its engine only by the answers to its requests. So what holds of every request
holds of the resolution (`Resolution.resolve_related`): with engines that answer alike it ends
alike, and if it fails without the engine, its failure is one of a few of its own.

Among these are no failures of the queue of texts, which is where the two traversals of the document
would fall out of step. Nor does the engine of a conversation fail so.
-/

namespace CitationFilter

/-! ## What goes wrong without the engine -/

/-- Whether an error says that there were too few or too many texts in the queue. -/
def Error.ofQueue : Error → Bool
  | .queueExhausted => true
  | .queueNotDrained _ => true
  | _ => false

theorem Outcome.ofQueue_of_text {outcome : Outcome} {e : Error} (h : outcome.text = .error e) :
    e.ofQueue = false := by
  rw [text] at h
  split at h
  · cases h
    rfl
  · cases h
  · split at h <;> cases h

theorem Cluster.ofQueue_of_build {store : Store} {occurrences : List Occurrence} {e : Error}
    (h : build store occurrences = .error e) : e.ofQueue = false := by
  obtain ⟨_, _, _, -, -, -, rfl⟩ := build_eq_error_iff.mp h
  rfl

namespace Resolution

theorem ofQueue_of_citationIds {metadata : Metadata} {field : String} {e : Error}
    (h : metadata.citationIds field = .error e) : e.ofQueue = false := by
  rw [Metadata.citationIds] at h
  split at h
  · cases h
  · split at h <;> cases h
    rfl

theorem ofQueue_of_uncitedIds {document : Document} {store : Store} {e : Error}
    (h : uncitedIds document store = .error e) : e.ofQueue = false := by
  rcases Except.bind_eq_error.mp h with hlisted | ⟨listed, -, h⟩
  · exact ofQueue_of_citationIds hlisted
  · split at h
    · cases h
    · rcases Except.bind_eq_error.mp h with hitems | ⟨items, -, h⟩
      · obtain ⟨_, id, _, -, -, hid⟩ := Except.mapM_eq_error_iff.mp hitems
        rw [(Store.retrieve_eq_error_iff.mp hid).2]
        rfl
      · cases h

end Resolution

/-! ## The stages of a resolution -/

section Related

variable {σ τ : Type} {J : ∀ {α : Type}, Step σ α → Step τ α → Prop} {e₁ : Engine σ} {e₂ : Engine τ}

theorem Cluster.formatAfter_related (hJ : Step.Congruence (fun e ↦ e.ofQueue = false) J)
    (h : Engine.Related J e₁ e₂) (before : List Position) (clusters : List Cluster) :
    J (formatAfter e₁ before clusters) (formatAfter e₂ before clusters) := by
  induction clusters generalizing before with
  | nil => exact hJ.pure []
  | cons cluster rest ih =>
    have hfirst : J (format e₁ before cluster) (format e₂ before cluster) :=
      hJ.bind (h.processCluster cluster before []) fun outcome ↦
        hJ.lift fun e he ↦ Outcome.ofQueue_of_text he
    exact hJ.bind hfirst fun text ↦ hJ.bind (ih _) fun texts ↦ hJ.pure _

theorem Bibliography.insert_related (hJ : Step.Congruence (fun e ↦ e.ofQueue = false) J)
    (h : Engine.Related J e₁ e₂) (format : String) (blocks : List Node) :
    J (insert e₁ format blocks) (insert e₂ format blocks) := by
  rw [insert, insert]
  cases headingIndex? blocks with
  | none => exact hJ.pure _
  | some index => exact hJ.bind h.makeBibliography fun entries ↦ hJ.pure _

namespace Resolution

theorem register_related (hJ : Step.Congruence (fun e ↦ e.ofQueue = false) J)
    (h : Engine.Related J e₁ e₂) (store : Store) (uncited : List String) :
    J (register e₁ store uncited) (register e₂ store uncited) := by
  refine hJ.bind (h.setOutputFormat _) fun _ ↦ hJ.bind (h.updateItems _) fun _ ↦ ?_
  cases uncited.isEmpty with
  | true => exact hJ.pure ()
  | false => exact h.updateUncitedItems uncited

/-- What holds of the requests holds of the whole resolution. Its own failures are none of the
queue, because the stage that could fail so has a text for every citation. -/
theorem resolve_related (hJ : Step.Congruence (fun e ↦ e.ofQueue = false) J)
    (h : Engine.Related J e₁ e₂) (store : Store) (format : String) (document : Document) :
    J (resolve e₁ store format document) (resolve e₂ store format document) := by
  rw [resolve_eq, resolve_eq]
  refine hJ.bind (hJ.lift fun e he ↦ ofQueue_of_uncitedIds he) fun uncited ↦ ?_
  refine hJ.bind (register_related hJ h store uncited) fun _ ↦ ?_
  refine hJ.bind (hJ.lift fun e he ↦ Cluster.ofQueue_of_build he) fun clusters ↦ ?_
  refine hJ.bind (Cluster.formatAfter_related hJ h [] clusters) fun texts ↦ ?_
  exact hJ.bind (Bibliography.insert_related hJ h format _) fun _ ↦ hJ.pure _

theorem exists_record {engine : Engine σ} {store : Store} {format : String} {document : Document}
    {s s' : σ} {result : Except Error Document}
    (h : Step.runFrom (resolve engine store format document) s = (result, s')) :
    ∃ record, Step.runFrom (resolve engine.recorded store format document) (s, [])
      = (result, s', record) :=
  (resolve_related (Step.alike_congruence _ _) engine.recorded_alike store format
    document).exists_record h

end Resolution

end Related

/-! ## The engine of a conversation -/

namespace Conversation

/-- A relation that holds of every call holds of the engine, if it allows for a result that cannot
be read. -/
theorem engine_related {E : Error → Prop}
    {J : ∀ {α : Type}, Step Conversation α → Step Conversation α → Prop} {store : Store}
    (hJ : Step.Congruence E J) (hfault : ∀ fault, E (.engineProtocol fault))
    (hcall : ∀ request, J (call store request) (call store request)) :
    Engine.Related J (engine store) (engine store) := by
  have htell (request : Request) : J (tell store request) (tell store request) :=
    hJ.bind (hcall request) fun _ ↦ hJ.pure ()
  have hask {α : Type} (request : Request) (read : Json → Except ProtocolFault α) :
      J (ask store request read) (ask store request read) := by
    refine hJ.bind (hcall request) fun result ↦ hJ.lift fun e he ↦ ?_
    obtain ⟨fault, -, rfl⟩ := Except.mapError_eq_error.mp he
    exact hfault fault
  constructor
  · exact fun format ↦ htell _
  · exact fun ids ↦ htell _
  · exact fun ids ↦ htell _
  · exact fun cluster before after ↦ hask _ _
  · exact hask _ _

theorem ofQueue_of_lookUp {store : Store} {name : String} {callback : Callback} {e : Error}
    (h : lookUp store name callback = .error e) : e.ofQueue = false := by
  cases callback with
  | locale => cases h
  | item =>
    rw [lookUp, Except.map_eq_error] at h
    rw [(Store.retrieve_eq_error_iff.mp h).2]
    rfl

theorem ofQueue_of_remember {store : Store} {failure : Option Error} {name : String}
    {callback : Callback} (hfailure : ∀ e ∈ failure, e.ofQueue = false) :
    ∀ e ∈ remember failure (lookUp store name callback), e.ofQueue = false := by
  rcases hfound : lookUp store name callback with e' | value
  · cases failure with
    | none =>
      rintro _ ⟨⟩
      exact ofQueue_of_lookUp hfound
    | some e => exact hfailure
  · exact hfailure

/-- While the engine is listened to, the lookup that is remembered is never a failure of the queue,
and so neither is what the request fails with. -/
theorem ofQueue_of_listen {store : Store} {failure : Option Error} {lines : List Bytes}
    {outbox : Outbox} {e : Error} {conversation : Conversation}
    (hfailure : ∀ e ∈ failure, e.ofQueue = false)
    (h : listen store failure lines outbox = (.error e, conversation)) : e.ofQueue = false := by
  -- only a callback changes the failure that is remembered, and it looks up an item or a locale
  fun_induction listen store failure lines outbox with
  | case1 => cases h; rfl
  | case2 => cases h; rfl
  | case3 failure line rest outbox text _ _ ih => exact ih hfailure h
  | case4 => cases h; rfl
  | case5 failure line rest outbox text _ _ callback name _ _ outbox' _ ih =>
    exact ih (ofQueue_of_remember hfailure) h
  | case6 => cases h; rfl
  | case7 failure =>
    cases failure with
    | none => cases h; rfl
    | some e' => cases h; exact hfailure _ rfl
  | case8 failure =>
    cases failure with
    | none => cases h
    | some e' => cases h; exact hfailure _ rfl

theorem call_failsWith (store : Store) (request : Request) :
    Step.FailsWith (fun e _ ↦ e.ofQueue = false) (call store request) := by
  intro s e s' h
  rw [call, Step.runFrom_mk] at h
  split at h
  · exact ofQueue_of_listen (by rintro _ ⟨⟩) h
  · cases h
    rfl

theorem engine_failsWith (store : Store) :
    Engine.Related
      (fun (p _ : Step Conversation _) ↦ Step.FailsWith (fun e _ ↦ e.ofQueue = false) p)
      (engine store) (engine store) :=
  engine_related (Step.failsWith_congruence fun _ _ he ↦ he) (fun _ ↦ rfl) (call_failsWith store)

end Conversation

/-! ## Clusters on the record -/

namespace Cluster

/-- The requests for clusters, given the positions of those before them. -/
def requestsAfter (before : List Position) : List Cluster → List Request
  | [] => []
  | cluster :: rest =>
    .processCluster cluster before [] :: requestsAfter (before ++ [cluster.position]) rest

theorem length_requestsAfter (before : List Position) (clusters : List Cluster) :
    (requestsAfter before clusters).length = clusters.length := by
  induction clusters generalizing before with
  | nil => rfl
  | cons cluster rest ih => rw [requestsAfter, List.length_cons, ih, List.length_cons]

/-- Formatting clusters makes their requests, each fulfilled with an outcome, and the texts are
those of the outcomes. -/
theorem record_of_formatAfter {σ : Type} {engine : Engine σ} {before : List Position}
    {clusters : List Cluster} {s s' : σ} {record record' : List Call} {texts : List String}
    (h : Step.runFrom (formatAfter engine.recorded before clusters) (s, record)
      = (.ok texts, s', record')) :
    ∃ outcomes : List Outcome, outcomes.map Outcome.text = texts.map .ok ∧
      record' = record ++ List.zipWith Call.answered (requestsAfter before clusters) outcomes := by
  induction clusters generalizing before s record texts with
  | nil =>
    cases h
    exact ⟨[], rfl, (List.append_nil _).symm⟩
  | cons cluster rest ih =>
    rw [formatAfter, Step.runFrom_bind_eq_ok] at h
    obtain ⟨text, t, hfirst, h⟩ := h
    rw [Step.runFrom_bind_eq_ok] at h
    obtain ⟨others, _, hothers, h⟩ := h
    cases h
    rw [format, Step.runFrom_bind_eq_ok] at hfirst
    obtain ⟨outcome, _, houtcome, hread⟩ := hfirst
    obtain ⟨s₁, -, rfl⟩ := Step.runFrom_recorded_eq_ok houtcome
    obtain ⟨htext, rfl⟩ := Step.runFrom_lift_eq_ok.mp hread
    obtain ⟨outcomes, htexts, rfl⟩ := ih hothers
    refine ⟨outcome :: outcomes, ?_, ?_⟩
    · rw [List.map_cons, List.map_cons, htext, htexts]
    · rw [requestsAfter, List.zipWith_cons_cons, List.append_assoc, List.singleton_append]
      rfl

end Cluster

/-! ## A small run -/

/-- An engine that answers every cluster with its id. -/
def Engine.echo : Engine Unit where
  setOutputFormat _ := pure ()
  updateItems _ := pure ()
  updateUncitedItems _ := pure ()
  processCluster cluster _ _ := pure ⟨true, [⟨cluster.noteIndex, cluster.id⟩]⟩
  makeBibliography := pure []

/-- A document with a cite node of two citations and one of a single citation. -/
def Document.sample : Document where
  metadata := ⟨[]⟩
  blocks := [.array [.cite ⟨[⟨"a", []⟩, ⟨"b", []⟩], .null⟩, .cite ⟨[⟨"a", []⟩], .null⟩]]
  frame := []

/-- A store with the items that are cited there. -/
def Store.sample : Store := ⟨[⟨"a", []⟩, ⟨"b", []⟩], []⟩

/-! ## The queue is never at fault -/

section Recorded

variable {σ : Type}

theorem Step.recorded_failsWith {α : Type} (request : Request) (answer : α → Answer)
    (step : Step σ α) :
    FailsWith (fun e t ↦ e.ofQueue = false ∨ ∃ call ∈ t.2, call.answer = .error e)
      (recorded request answer step) := by
  rintro ⟨s, record⟩ e t h
  obtain ⟨s', -, rfl⟩ := runFrom_recorded_eq_error h
  exact Or.inr ⟨_, List.mem_append_right _ (List.mem_singleton_self _), rfl⟩

theorem Engine.recorded_failsWith (engine : Engine σ) :
    Related (fun (p _ : Step (σ × List Call) _) ↦
        Step.FailsWith (fun e t ↦ e.ofQueue = false ∨ ∃ call ∈ t.2, call.answer = .error e) p)
      engine.recorded engine.recorded where
  setOutputFormat _ := Step.recorded_failsWith _ _ _
  updateItems _ := Step.recorded_failsWith _ _ _
  updateUncitedItems _ := Step.recorded_failsWith _ _ _
  processCluster _ _ _ := Step.recorded_failsWith _ _ _
  makeBibliography := Step.recorded_failsWith _ _ _

/-- The queue of texts is never at fault. If a resolution fails with an error of the queue, the
engine has failed with that very error in one of its calls, and the engine of a conversation never
does. And whenever the clusters have been formatted, there are as many calls and as many texts as
occurrences, and the rewriter uses up all of the texts. -/
theorem queue_never_at_fault (engine : Engine σ) (store served : Store) (format : String)
    (document : Document) (s : σ) (conversation : Conversation) :
    (∀ e s', e.ofQueue = true →
      Step.runFrom (Resolution.resolve engine store format document) s = (.error e, s') →
      ∃ record,
        Step.runFrom (Resolution.resolve engine.recorded store format document) (s, [])
          = (.error e, s', record) ∧
        ∃ call ∈ record, call.answer = .error e) ∧
    (∀ e s', e.ofQueue = true →
      Step.runFrom (Resolution.resolve (Conversation.engine served) store format document)
        conversation ≠ (.error e, s')) ∧
    (∀ clusters texts s',
      Cluster.build store (Occurrence.extract document.blocks) = .ok clusters →
      Step.runFrom (Cluster.formatAll engine clusters) s = (.ok texts, s') →
      clusters.length = (Occurrence.extract document.blocks).length ∧
      texts.length = clusters.length ∧
      (∃ record,
        Step.runFrom (Cluster.formatAll engine.recorded clusters) (s, [])
          = (.ok texts, s', record) ∧
        record.length = clusters.length) ∧
      ∃ blocks, Placement.run format ⟨texts⟩ document.blocks = (.ok blocks, ⟨[]⟩)) := by
  refine ⟨?_, ?_, ?_⟩
  · intro e s' hqueue h
    obtain ⟨record, hrecord⟩ := Resolution.exists_record h
    refine ⟨record, hrecord, ?_⟩
    have hfails := Resolution.resolve_related (Step.failsWith_congruence fun _ _ ↦ Or.inl)
      engine.recorded_failsWith store format document hrecord
    exact hfails.resolve_left (by simp [hqueue])
  · intro e s' hqueue h
    have hnone : e.ofQueue = false :=
      Resolution.resolve_related (Step.failsWith_congruence fun _ _ he ↦ he)
        (Conversation.engine_failsWith served) store format document h
    rw [hqueue] at hnone
    cases hnone
  · intro clusters texts s' hbuild h
    have hclusters : clusters.length = (Occurrence.extract document.blocks).length := by
      rw [(Cluster.build_eq_ok_iff.mp hbuild).2, Cluster.length_numberedFrom]
    have htexts : texts.length = clusters.length := Cluster.length_of_formatAfter h
    obtain ⟨record, hrecord⟩ := (Cluster.formatAfter_related (Step.alike_congruence _ _)
      engine.recorded_alike [] clusters).exists_record h
    refine ⟨hclusters, htexts, ⟨record, hrecord, ?_⟩,
      Placement.placed format texts document.blocks, ?_⟩
    · obtain ⟨outcomes, houtcomes, rfl⟩ := Cluster.record_of_formatAfter hrecord
      have hlength : outcomes.length = texts.length := by
        simpa using congrArg List.length houtcomes
      rw [List.nil_append, List.length_zipWith, Cluster.length_requestsAfter, hlength, htexts,
        Nat.min_self]
    · rw [Placement.run_eq format document.blocks (by omega), ← hclusters, ← htexts,
        List.drop_length]

theorem queue_never_at_fault_sample :
    ∃ blocks, Placement.run "html" ⟨["a_0", "b_1", "a_2"]⟩ Document.sample.blocks
      = (.ok blocks, ⟨[]⟩) := by
  have h := queue_never_at_fault Engine.echo Store.sample Store.sample "html" Document.sample ()
    (.start [] none)
  obtain ⟨-, -, -, hblocks⟩ := h.2.2
    (Cluster.numberedFrom 0 (Occurrence.extract Document.sample.blocks)) ["a_0", "b_1", "a_2"] ()
    (by rfl) (by rfl)
  exact hblocks

end Recorded

end CitationFilter
