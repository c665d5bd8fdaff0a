import CitationFilter.Proofs.Citation.Plan
import CitationFilter.Proofs.Library.Index

/-!
# Items that are not cited in the text

The metadata may list items that belong to the bibliography without being cited, by citing them in a
field of their own. Which ids are registered as uncited is settled before the engine is asked for
anything: all of the store if the list has the id that stands for everything, otherwise the listed
ids, each once. A list that cannot be read, or that has an id that is not in the store, ends the
resolution at once, and the engine is left as it was.

What a resolution does with the ids is on the record. `Registration` lists the four ways in which
the requests at its beginning can end, and `Resolution.record_of_registration` says that every
resolution starts with one of them and registers no uncited items afterwards.
-/

namespace CitationFilter

/-! ## The list -/

/-- The ids of the items that are cited in a field, in the order in which the cite nodes are
visited. A field that is missing lists none. -/
inductive Metadata.Lists (metadata : Metadata) (field : String) : List String → Prop
  | missing : metadata.fields.lookup field = none → Lists metadata field []
  | cited {value : Json} {node : Node} : metadata.fields.lookup field = some value →
      Node.ofJson value = .ok node →
      Lists metadata field (node.cites.flatMap fun c ↦ c.citations.map Citation.id)

theorem Metadata.Lists.citationIds_eq {metadata : Metadata} {field : String} {ids : List String}
    (h : metadata.Lists field ids) : metadata.citationIds field = .ok ids := by
  rw [citationIds]
  cases h with
  | missing hnone => rw [hnone]
  | cited hvalue hnode =>
    rw [hvalue]
    dsimp only
    rw [hnode]

namespace Resolution

variable {document : Document} {store : Store} {listed : List String}

theorem uncitedIds_of_malformed {value : Json} {fault : CitationFault}
    (hvalue : document.metadata.fields.lookup uncitedField = some value)
    (hfault : Node.ofJson value = .error fault) :
    uncitedIds document store = .error (.malformedCitation fault) := by
  have hids : document.metadata.citationIds uncitedField = .error (.malformedCitation fault) := by
    rw [Metadata.citationIds, hvalue]
    dsimp only
    rw [hfault]
  rw [uncitedIds, hids]
  rfl

theorem uncitedIds_of_allItems (h : document.metadata.Lists uncitedField listed)
    (hall : allItems ∈ listed) : uncitedIds document store = .ok store.ids := by
  rw [uncitedIds, h.citationIds_eq]
  exact if_pos (List.contains_iff_mem.mpr hall)

theorem uncitedIds_of_mem (h : document.metadata.Lists uncitedField listed)
    (hall : allItems ∉ listed) (hids : ∀ id ∈ listed, id ∈ store.ids) :
    uncitedIds document store = .ok (distinct listed) := by
  obtain ⟨items, hitems⟩ := Except.exists_mapM_eq_ok_iff.mpr fun id hid ↦
    Store.exists_retrieve_of_mem (hids id hid)
  have hnot : ¬listed.contains allItems = true := fun hmem ↦ hall (List.contains_iff_mem.mp hmem)
  rw [uncitedIds, h.citationIds_eq]
  show (if listed.contains allItems then _ else _) = _
  rw [if_neg hnot, hitems]
  rfl

theorem uncitedIds_of_missing {before after : List String} {id : String}
    (h : document.metadata.Lists uncitedField (before ++ id :: after))
    (hall : allItems ∉ before ++ id :: after) (hbefore : ∀ other ∈ before, other ∈ store.ids)
    (hid : id ∉ store.ids) : uncitedIds document store = .error (.itemNotFound id) := by
  have hfails : (before ++ id :: after).mapM store.retrieve = .error (.itemNotFound id) :=
    Except.mapM_append_cons_eq_error (fun other hother ↦
      Store.exists_retrieve_of_mem (hbefore other hother)) (Store.retrieve_of_not_mem hid) after
  have hnot : ¬(before ++ id :: after).contains allItems = true := fun hmem ↦
    hall (List.contains_iff_mem.mp hmem)
  rw [uncitedIds, h.citationIds_eq]
  show (if (before ++ id :: after).contains allItems then _ else _) = _
  rw [if_neg hnot, hfails]
  rfl

end Resolution

/-! ## The registration -/

/-- The ways in which the requests that register items end: the first or the second fails, or both
are fulfilled, and then the uncited items are registered if there are any. -/
inductive Registration (store : Store) (uncited : List String) : List Call → Prop
  | noFormat (e : Error) : Registration store uncited [⟨.setOutputFormat "html", .error e⟩]
  | noItems (e : Error) : Registration store uncited
      [⟨.setOutputFormat "html", .ok .done⟩, ⟨.updateItems store.ids, .error e⟩]
  | noUncited : uncited = [] → Registration store uncited
      [⟨.setOutputFormat "html", .ok .done⟩, ⟨.updateItems store.ids, .ok .done⟩]
  | uncited (answer : Except Error Answer) : uncited ≠ [] → Registration store uncited
      [⟨.setOutputFormat "html", .ok .done⟩, ⟨.updateItems store.ids, .ok .done⟩,
        ⟨.updateUncitedItems uncited, answer⟩]

/-- The record begins with the registration, and nothing more is registered afterwards. -/
def Registers (store : Store) (uncited : List String) (record : List Call) : Prop :=
  ∃ registered more, record = registered ++ more ∧ Registration store uncited registered ∧
    ∀ call ∈ more, call.request.method ≠ "updateUncitedItems"

namespace Resolution

section Stages

variable {σ : Type} {engine : Engine σ} {store : Store} {uncited : List String} {s s' : σ}
  {record : List Call}

theorem runFrom_recorded_cases {α : Type} (request : Request) (answer : α → Answer)
    (step : Step σ α) (s : σ) (record : List Call) :
    (∃ a s', Step.runFrom (Step.recorded request answer step) (s, record)
      = (.ok a, s', record ++ [⟨request, .ok (answer a)⟩])) ∨
    ∃ e s', Step.runFrom (Step.recorded request answer step) (s, record)
      = (.error e, s', record ++ [⟨request, .error e⟩]) := by
  rw [Step.runFrom_recorded]
  rcases Step.runFrom step s with ⟨e | a, s'⟩
  · exact Or.inr ⟨e, s', rfl⟩
  · exact Or.inl ⟨a, s', rfl⟩

theorem registration_of_register {result : Except Error Unit}
    (h : Step.runFrom (register engine.recorded store uncited) (s, []) = (result, s', record)) :
    Registration store uncited record := by
  rw [register] at h
  rcases runFrom_recorded_cases (.setOutputFormat "html") (fun _ ↦ .done)
    (engine.setOutputFormat "html") s [] with ⟨_, s₁, hformat⟩ | ⟨e, s₁, hformat⟩
  · rw [Step.runFrom_bind_of_ok (p := engine.recorded.setOutputFormat "html") hformat] at h
    rcases runFrom_recorded_cases (.updateItems store.ids) (fun _ ↦ .done)
      (engine.updateItems store.ids) s₁ _ with ⟨_, s₂, hitems⟩ | ⟨e, s₂, hitems⟩
    · rw [Step.runFrom_bind_of_ok (p := engine.recorded.updateItems store.ids) hitems] at h
      by_cases huncited : uncited = []
      · rw [huncited] at h
        cases h
        exact .noUncited huncited
      · have hne : ¬uncited.isEmpty = true := fun h ↦ huncited (List.isEmpty_iff.mp h)
        rw [if_neg hne] at h
        rcases runFrom_recorded_cases (.updateUncitedItems uncited) (fun _ ↦ .done)
          (engine.updateUncitedItems uncited) s₂ _ with ⟨_, s₃, hrun⟩ | ⟨e, s₃, hrun⟩
        · cases hrun.symm.trans h
          exact .uncited _ huncited
        · cases hrun.symm.trans h
          exact .uncited _ huncited
    · rw [Step.runFrom_bind_of_error (p := engine.recorded.updateItems store.ids) hitems] at h
      cases h
      exact .noItems e
  · rw [Step.runFrom_bind_of_error (p := engine.recorded.setOutputFormat "html") hformat] at h
    cases h
    exact .noFormat e

theorem method_of_mem_formatting (document : Document) (store : Store) {request : Request}
    (h : request ∈
      if ∀ occurrence ∈ Occurrence.extract document.blocks, occurrence.itemId ∈ store.ids then
        Cluster.requests (Cluster.numberedFrom 0 (Occurrence.extract document.blocks)) ++
          bibliographyRequest document.blocks
      else []) : request.method ≠ "updateUncitedItems" := by
  split at h
  · rcases List.mem_append.mp h with hcluster | hbibliography
    · obtain ⟨k, hk, hrequest⟩ := List.mem_mapIdx.mp hcluster
      rw [← hrequest]
      simp [Request.method]
    · rw [bibliographyRequest] at hbibliography
      split at hbibliography
      · rw [List.mem_singleton.mp hbibliography]
        simp [Request.method]
      · cases hbibliography
  · cases h

/-- A resolution whose uncited items are known begins with the registration, and what it asks for
afterwards registers nothing more. -/
theorem record_of_registration {document : Document} {format : String}
    {result : Except Error Document} (huncited : uncitedIds document store = .ok uncited)
    (h : Step.runFrom (resolve engine.recorded store format document) (s, [])
      = (result, s', record)) :
    Registers store uncited record := by
  rw [resolve_eq, huncited, Step.runFrom_bind_of_ok (Step.runFrom_lift _ _)] at h
  rcases hregister : Step.runFrom (register engine.recorded store uncited) (s, []) with
    ⟨e | _, s₁, registered⟩
  · rw [Step.runFrom_bind_of_error hregister] at h
    cases h
    exact ⟨record, [], (List.append_nil _).symm, registration_of_register hregister,
      List.forall_mem_nil _⟩
  · rw [Step.runFrom_bind_of_ok hregister] at h
    have hfollows := formatting_follows engine store format document
    have hcalls : ∃ calls, record = registered ++ calls ∧
        ∀ call ∈ calls, call.request.method ≠ "updateUncitedItems" := by
      cases result with
      | ok resolved =>
        obtain ⟨calls, hcalls, hplan, -⟩ := hfollows.ok h
        refine ⟨calls, hcalls, fun call hcall ↦ method_of_mem_formatting document store ?_⟩
        rw [← hplan]
        exact List.mem_map_of_mem hcall
      | error e =>
        obtain ⟨calls, hcalls, hprefix, -⟩ := hfollows.error h
        refine ⟨calls, hcalls, fun call hcall ↦ method_of_mem_formatting document store ?_⟩
        exact hprefix.subset (List.mem_map_of_mem hcall)
    obtain ⟨calls, hrecord, hmethods⟩ := hcalls
    exact ⟨registered, calls, hrecord, registration_of_register hregister, hmethods⟩

theorem resolve_of_uncitedIds_error {document : Document} {format : String} {e : Error}
    (huncited : uncitedIds document store = .error e) (s : σ) :
    Step.runFrom (resolve engine store format document) s = (.error e, s) := by
  rw [resolve, huncited]
  exact Step.runFrom_bind_of_error (Step.runFrom_lift _ _)

/-- **Uncited items.** If the items that the metadata list without a citation in the text include
the one that stands for all, every id of the store is registered; otherwise the listed ids are, each
once and in the order in which they first occur. The first listed id that is not in the store ends
the resolution, and so does a list with a malformed cite node, and then nothing has been asked of
the engine. Items are registered as uncited exactly if there are any and the engine has taken the
items of the store. -/
theorem uncited_items_registered (engine : Engine σ) (store : Store) (format : String)
    (document : Document) (s : σ) :
    ∃ result s' record,
      Step.runFrom (resolve engine store format document) s = (result, s') ∧
      Step.runFrom (resolve engine.recorded store format document) (s, [])
        = (result, s', record) ∧
      (∀ value fault, document.metadata.fields.lookup "nocite" = some value →
        Node.ofJson value = .error fault →
        result = .error (.malformedCitation fault) ∧ s' = s ∧ record = []) ∧
      ∀ listed, document.metadata.Lists "nocite" listed →
        ("*" ∈ listed → Registers store store.ids record) ∧
        ("*" ∉ listed → (∀ id ∈ listed, id ∈ store.ids) →
          ∃ uncited : List String, uncited.Nodup ∧ (∀ id, id ∈ uncited ↔ id ∈ listed) ∧
            uncited.Pairwise (fun a b ↦ listed.idxOf a < listed.idxOf b) ∧
            Registers store uncited record) ∧
        ∀ before id after, listed = before ++ id :: after → "*" ∉ listed →
          (∀ other ∈ before, other ∈ store.ids) → id ∉ store.ids →
          result = .error (.itemNotFound id) ∧ s' = s ∧ record = [] := by
  rcases hrun : Step.runFrom (resolve engine store format document) s with ⟨result, s'⟩
  obtain ⟨record, hrecord⟩ := exists_record hrun
  have hfails : ∀ e, uncitedIds document store = .error e →
      result = .error e ∧ s' = s ∧ record = [] := by
    intro e he
    rw [resolve_of_uncitedIds_error he] at hrecord
    cases hrecord
    exact ⟨rfl, rfl, rfl⟩
  refine ⟨result, s', record, rfl, hrecord, ?_, fun listed hlisted ↦ ⟨?_, ?_, ?_⟩⟩
  · intro value fault hvalue hfault
    exact hfails _ (uncitedIds_of_malformed hvalue hfault)
  · intro hall
    exact record_of_registration (uncitedIds_of_allItems hlisted hall) hrecord
  · intro hall hids
    refine ⟨distinct listed, nodup_distinct listed, fun id ↦ mem_distinct,
      pairwise_idxOf_distinct listed, ?_⟩
    exact record_of_registration (uncitedIds_of_mem hlisted hall hids) hrecord
  · rintro before id after rfl hall hbefore hid
    exact hfails _ (uncitedIds_of_missing hlisted hall hbefore hid)

end Stages

/-- A document that lists two items, one of them twice, and cites nothing in its text. -/
theorem uncited_items_registered_repeated :
    let citation (id : String) : Json := .obj [("citationId", .str id)]
    let value : Json := .obj [("t", .str "Cite"),
      ("c", .arr [.arr [citation "b", citation "a", citation "b"]])]
    let document : Document := ⟨⟨[("nocite", value)]⟩, [], []⟩
    document.metadata.Lists "nocite" ["b", "a", "b"] ∧
      ∃ record, Step.runFrom (resolve Engine.echo.recorded Store.sample "html" document) ((), [])
        = (.ok document, (), record) ∧
      ∃ uncited : List String, uncited.Nodup ∧ (∀ id, id ∈ uncited ↔ id ∈ ["b", "a", "b"]) ∧
        Registers Store.sample uncited record := by
  intro citation value document
  have hlisted : document.metadata.Lists "nocite" ["b", "a", "b"] :=
    @Metadata.Lists.cited _ _ value (.cite ⟨[⟨"b", []⟩, ⟨"a", []⟩, ⟨"b", []⟩], value⟩) rfl rfl
  have hok : Step.runFrom (resolve Engine.echo Store.sample "html" document) ()
      = (.ok document, ()) := rfl
  obtain ⟨result, s', record, hrun, hrecord, -, hlists⟩ :=
    uncited_items_registered Engine.echo Store.sample "html" document ()
  cases hok.symm.trans hrun
  have hids : ∀ id ∈ ["b", "a", "b"], id ∈ Store.sample.ids := by decide
  obtain ⟨uncited, hnodup, hsame, -, hregisters⟩ := (hlists _ hlisted).2.1 (by decide) hids
  exact ⟨hlisted, record, hrecord, uncited, hnodup, hsame, hregisters⟩

end Resolution

end CitationFilter
