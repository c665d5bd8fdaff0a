import CitationFilter.Engine.Conversation
import CitationFilter.Proofs.Json.Reader
import CitationFilter.Proofs.Json.Shape
import CitationFilter.Proofs.Step

/-!
# Which results are accepted

The engine is a program of its own, so its results may be any values. What it may say about a
cluster and about the bibliography is given here as a relation between values and what they stand
for. The filter accepts exactly the values that stand for something, and takes them for just that:
nothing is left out and nothing made up. With any other result the engine has broken the rules, and
the request fails.
-/

namespace CitationFilter

/-! ## What results stand for -/

namespace Json

/-- The value says whether the bibliography changed. Nothing said means no. -/
inductive IsStatus : Json → Bool → Prop
  | silent {fields : List (String × Json)} : fields.lookup "bibchange" = none →
      IsStatus (.obj fields) false
  | said {fields : List (String × Json)} {b : Bool} : fields.lookup "bibchange" = some (.bool b) →
      IsStatus (.obj fields) b
  | silentArray : IsStatus (.arr []) false
  | saidArray (b : Bool) : IsStatus (.arr [.bool b]) b

/-- The value is an array that begins with the index, which has 64 bits, and the text. -/
inductive IsUpdate : Json → Update → Prop
  | intro {i : Nat} (text : String) (more : List Json) : i < twoTo 64 →
      IsUpdate (.arr (.num (.int i) :: .str text :: more)) ⟨i, text⟩

/-- The value is a pair of a status and an array of updates. -/
inductive IsOutcome : Json → Outcome → Prop
  | intro {status : Json} {values : List Json} {outcome : Outcome} :
      status.IsStatus outcome.bibliographyChanged →
      List.Forall₂ IsUpdate values outcome.updates → IsOutcome (.arr [status, .arr values]) outcome

/-- The value stands for the entries of a bibliography. -/
inductive ListsEntries : Json → List String → Prop
  | noBibliography : ListsEntries (.bool false) []
  | entries (first : Json) (entries : List String) :
      ListsEntries (.arr [first, .arr (entries.map .str)]) entries

end Json

/-! ## The results for clusters -/

namespace Outcome

variable {value : Json}

theorem statusOfJson_eq_ok_iff {b : Bool} : statusOfJson value = .ok b ↔ value.IsStatus b := by
  rw [statusOfJson, Json.asRecord_eq_ok_iff]
  simp only [Json.optional_eq_ok_iff, Json.asBool_eq_ok_iff]
  constructor
  · rintro (⟨fields, rfl, hfields⟩ | ⟨items, rfl, hlength, hitems⟩)
    · rcases hfields with ⟨hnone, rfl⟩ | ⟨_, hsome, rfl⟩
      · exact .silent hnone
      · exact .said hsome
    · match items, hlength, hitems with
      | [], _, .inl ⟨_, hb⟩ =>
        rw [← hb]
        exact .silentArray
      | [first], _, .inr ⟨_, hfirst, hb⟩ =>
        obtain rfl : first = .bool b := (Option.some.inj hfirst).trans hb
        exact .saidArray b
  · intro h
    cases h with
    | silent hnone => exact Or.inl ⟨_, rfl, Or.inl ⟨hnone, rfl⟩⟩
    | said hsome => exact Or.inl ⟨_, rfl, Or.inr ⟨_, hsome, rfl⟩⟩
    | silentArray => exact Or.inr ⟨[], rfl, by decide, Or.inl ⟨rfl, rfl⟩⟩
    | saidArray b => exact Or.inr ⟨[.bool b], rfl, Nat.le_refl 1, Or.inr ⟨_, rfl, rfl⟩⟩

theorem count?_eq_some_iff {index : Json.Number} {i : Nat} :
    index.count? = some i ↔ index = .int i ∧ i < twoTo 64 := by
  cases index with
  | int n =>
    rw [Json.Number.count?, Json.countLimit, Option.ite_none_right_eq_some]
    generalize twoTo 64 = limit
    simp
    omega
  | float x => simp [Json.Number.count?]

theorem updateOfItems_eq_ok_iff {items : List Json} {update : Update} :
    updateOfItems items = .ok update ↔ (Json.arr items).IsUpdate update := by
  constructor
  · intro h
    rw [updateOfItems.eq_def] at h
    split at h
    · rename_i index text more
      split at h
      · rename_i i hcount
        obtain ⟨rfl, hi⟩ := count?_eq_some_iff.mp hcount
        cases h
        exact .intro text more hi
      · cases h
    · cases h
  · rintro ⟨text, more, hi⟩
    rw [updateOfItems, count?_eq_some_iff.mpr ⟨rfl, hi⟩]

/-- The updates are read in two steps, of which the first one only looks for arrays. -/
theorem forall₂_isUpdate_iff {values : List Json} {updates : List Update} :
    (∃ lists, List.Forall₂ (fun value list ↦ value.asItems = .ok list) values lists ∧
      lists.mapM updateOfItems = .ok updates) ↔ List.Forall₂ Json.IsUpdate values updates := by
  simp only [Json.asItems_eq_ok_iff, Except.mapM_eq_ok_iff, updateOfItems_eq_ok_iff]
  constructor
  · rintro ⟨lists, hlists, hupdates⟩
    induction hlists generalizing updates with
    | nil =>
      cases hupdates
      exact .nil
    | cons hvalue _ ih =>
      cases hupdates with
      | cons hupdate hrest =>
        rw [hvalue]
        exact .cons hupdate (ih hrest)
  · intro h
    induction h with
    | nil => exact ⟨[], .nil, .nil⟩
    | cons hupdate _ ih =>
      obtain ⟨lists, hlists, hrest⟩ := ih
      cases hupdate with
      | intro text more hi =>
        exact ⟨_ :: lists, .cons rfl hlists, .cons (.intro text more hi) hrest⟩

theorem ofJson_eq_ok_iff {outcome : Outcome} :
    ofJson value = .ok outcome ↔ value.IsOutcome outcome := by
  obtain ⟨changed, updates⟩ := outcome
  rw [ofJson]
  constructor
  · intro h
    obtain ⟨⟨status, lists⟩, hpair, h⟩ := Except.bind_eq_ok.mp h
    obtain ⟨updates, hupdates, ⟨⟩⟩ := Except.bind_eq_ok.mp h
    obtain ⟨first, second, rfl, hstatus, hlist⟩ :=
      Json.asPair_eq_ok_iff.mp (Except.mapError_eq_ok.mp hpair)
    obtain ⟨values, rfl, hvalues⟩ := Json.asList_eq_ok_iff.mp hlist
    exact .intro (statusOfJson_eq_ok_iff.mp hstatus)
      (forall₂_isUpdate_iff.mp ⟨lists, hvalues, hupdates⟩)
  · rintro ⟨hstatus, hupdates⟩
    obtain ⟨lists, hvalues, hlists⟩ := forall₂_isUpdate_iff.mpr hupdates
    refine Except.bind_eq_ok.mpr ⟨(changed, lists), Except.mapError_eq_ok.mpr ?_, ?_⟩
    · exact Json.asPair_eq_ok_iff.mpr ⟨_, _, rfl, statusOfJson_eq_ok_iff.mpr hstatus,
        Json.asList_eq_ok_iff.mpr ⟨_, rfl, hvalues⟩⟩
    · exact Except.bind_eq_ok.mpr ⟨updates, hlists, rfl⟩

end Outcome

/-! ## The results for bibliographies -/

namespace Request

variable {value : Json} {entries : List String}

theorem forall₂_asText_iff {values : List Json} :
    List.Forall₂ (fun value entry ↦ value.asText = .ok entry) values entries ↔
      values = entries.map .str := by
  simp only [Json.asText_eq_ok_iff]
  rw [← List.forall₂_map_right_iff, List.forall₂_eq_eq_eq]

theorem entriesOfJson_eq_ok_iff :
    entriesOfJson value = .ok entries ↔ value.ListsEntries entries := by
  have hpair : ((Json.asPair Except.ok (Json.asList Json.asText) .pair value).map (·.2)).mapError
      ProtocolFault.bibliography = .ok entries ↔
      ∃ first, value = .arr [first, .arr (entries.map .str)] := by
    rw [Except.mapError_eq_ok, Except.map_eq_ok]
    constructor
    · rintro ⟨⟨_, _⟩, hpair, rfl⟩
      obtain ⟨first, second, rfl, -, hlist⟩ := Json.asPair_eq_ok_iff.mp hpair
      obtain ⟨values, rfl, hvalues⟩ := Json.asList_eq_ok_iff.mp hlist
      exact ⟨first, by rw [forall₂_asText_iff.mp hvalues]⟩
    · rintro ⟨first, rfl⟩
      have hlist : Json.asList Json.asText (.arr (entries.map .str)) = .ok entries :=
        Json.asList_eq_ok_iff.mpr ⟨_, rfl, forall₂_asText_iff.mpr rfl⟩
      exact ⟨(first, entries), Json.asPair_eq_ok_iff.mpr ⟨first, _, rfl, rfl, hlist⟩, rfl⟩
  constructor
  · intro h
    rw [entriesOfJson.eq_def] at h
    split at h
    · cases h
      exact .noBibliography
    · obtain ⟨first, rfl⟩ := hpair.mp h
      exact .entries first entries
  · intro h
    cases h with
    | noBibliography => rfl
    | entries first entries => exact hpair.mpr ⟨first, rfl⟩

end Request

/-! ## What becomes of a request -/

open Step (runFrom)

/-- After the state `c` the step goes on in `c'`: it gives what there is to be read, if there is
anything, and otherwise it fails because the engine has broken the rules. -/
structure Conversation.Gives {α : Type} (step : Step Conversation α) (c c' : Conversation)
    (IsRead : α → Prop) : Prop where
  ok : ∀ a, runFrom step c = (.ok a, c') ↔ IsRead a
  error : (¬∃ a, IsRead a) → ∃ fault, runFrom step c = (.error (.engineProtocol fault), c')

namespace Conversation

theorem gives_ask {α : Type} {store : Store} {request : Request} {c c' : Conversation}
    {result : Json} {read : Json → Except ProtocolFault α} {IsRead : α → Prop}
    (hread : ∀ a, read result = .ok a ↔ IsRead a)
    (hcall : runFrom (call store request) c = (.ok result, c')) :
    Gives (ask store request read) c c' IsRead := by
  have hask : runFrom (ask store request read) c
      = ((read result).mapError Error.engineProtocol, c') := by
    rw [ask, Step.runFrom_bind_of_ok hcall, Step.runFrom_lift]
  constructor
  · intro a
    rw [hask, ← hread, Prod.mk.injEq, Except.mapError_eq_ok, and_iff_left rfl]
  · intro hnone
    cases hresult : read result with
    | ok a => exact (hnone ⟨a, (hread a).mp hresult⟩).elim
    | error fault =>
      rw [hask, hresult]
      exact ⟨fault, rfl⟩

/-- **The results that are accepted.** A value is read as an outcome exactly if it stands for that
outcome, and as entries exactly if it stands for these entries. So when the engine has given a
result, the request for a cluster gives the outcome and the request for the bibliography the entries
that the result stands for, or they fail because the rules are broken. -/
theorem results_read_exactly :
    (∀ result outcome, Outcome.ofJson result = .ok outcome ↔ result.IsOutcome outcome) ∧
    (∀ result entries, Request.entriesOfJson result = .ok entries ↔ result.ListsEntries entries) ∧
    ∀ (store : Store) (c c' : Conversation) (result : Json),
      (∀ cluster before after,
        runFrom (call store (.processCluster cluster before after)) c = (.ok result, c') →
        Gives ((engine store).processCluster cluster before after) c c' result.IsOutcome) ∧
      (runFrom (call store .makeBibliography) c = (.ok result, c') →
        Gives (engine store).makeBibliography c c' result.ListsEntries) := by
  refine ⟨fun result outcome ↦ Outcome.ofJson_eq_ok_iff,
    fun result entries ↦ Request.entriesOfJson_eq_ok_iff, fun store c c' result ↦ ⟨?_, ?_⟩⟩
  · intro cluster before after hcall
    exact gives_ask (fun outcome ↦ Outcome.ofJson_eq_ok_iff) hcall
  · intro hcall
    exact gives_ask (fun entries ↦ Request.entriesOfJson_eq_ok_iff) hcall

/-- A status and an update may be arrays with other lengths than those that are usual. An index
below zero is not taken for another one. -/
theorem results_read_exactly_sample :
    let store : Store := ⟨[], []⟩
    let cluster : Cluster := ⟨"a_0", [⟨"a", none⟩], 0⟩
    let answering (result : Json) : Conversation :=
      ⟨[Bytes.ofText (Json.obj [("result", result)]).text], ⟨[], none⟩⟩
    let asked : Conversation := ⟨[], ⟨[(Request.processCluster cluster [] []).toJson.text], none⟩⟩
    runFrom ((engine store).processCluster cluster [] [])
        (answering (.arr [.arr [], .arr [.arr [.num (.int 2), .str "x", .null]]]))
      = (.ok ⟨false, [⟨2, "x"⟩]⟩, asked) ∧
    ∃ fault, runFrom ((engine store).processCluster cluster [] [])
        (answering (.arr [.obj [], .arr [.arr [.num (.int (-2)), .str "x"]]]))
      = (.error (.engineProtocol fault), asked) := by
  intro store cluster answering asked
  have hcall : ∀ result : Json, let value : Json := .obj [("result", result)]
      Json.readAll? value.text = some value → Text.allBlank value.text = false →
      runFrom (call store (.processCluster cluster [] [])) (answering result)
        = (.ok result.merged, asked) := by
    intro result value hread hblank
    have hmessage : Message.ofLine value.text = .ok (.success result.merged) := by
      rw [Message.ofLine, hread]
      rfl
    rw [call, Step.runFrom_mk]
    show listen store none [Bytes.ofText value.text] _ = _
    rw [listen, Bytes.toText?_ofText]
    dsimp only
    rw [if_neg (Bool.eq_false_iff.mp hblank), hmessage]
    rfl
  have hgood := hcall (.arr [.arr [], .arr [.arr [.num (.int 2), .str "x", .null]]])
    (Json.readAll?_text (by decide +kernel) rfl) (by decide +kernel)
  have hbad := hcall (.arr [.obj [], .arr [.arr [.num (.int (-2)), .str "x"]]])
    (Json.readAll?_text (by decide +kernel) rfl) (by decide +kernel)
  refine ⟨?_, ?_⟩
  · refine (((results_read_exactly.2.2 _ _ _ _).1 cluster [] [] hgood).ok _).mpr ?_
    exact .intro .silentArray (.cons (.intro "x" [.null] (by decide)) .nil)
  · refine ((results_read_exactly.2.2 _ _ _ _).1 cluster [] [] hbad).error ?_
    rintro ⟨outcome, houtcome⟩
    cases houtcome with
    | intro _ hupdates =>
      obtain ⟨_, _, hupdate, -, -⟩ := List.forall₂_cons_left_iff.mp hupdates
      cases hupdate

end Conversation

end CitationFilter
