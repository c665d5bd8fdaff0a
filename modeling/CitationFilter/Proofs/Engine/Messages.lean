import CitationFilter.Proofs.Engine.Lookups
import CitationFilter.Proofs.Json.Bounds
import CitationFilter.Proofs.Json.Shape
import Mathlib.Data.List.Perm.Basic

/-!
# Which message a line stands for

A line of the engine may hold any value, and the values that are messages are told apart by four
keys. `Json.StandsFor` says which message a value stands for, without a look at how the reader goes
about it: a value stands for a callback if it has the shape of one, otherwise for a failure if it
has the shape of a failure, and otherwise for a result if it has one. A shape asks for its keys to
occur, each of them exactly once, and takes no notice of all other keys.

So a result may stand beside a callback that is not shaped like one and beside a failure without a
text. But a value without any of the three shapes is no message, and the request during which it
comes fails.
-/

namespace CitationFilter

/-! ## The three shapes -/

/-- The name under which the engine knows a callback. -/
def Callback.name : Callback → String
  | .item => "retrieveItem"
  | .locale => "retrieveLocale"

namespace Json

/-- The key occurs exactly once among the fields, with this value. -/
def OccursOnce (key : String) (value : Json) (fields : List (String × Json)) : Prop :=
  ∃ before after, fields = before ++ (key, value) :: after ∧
    ∀ field ∈ before ++ after, field.1 ≠ key

/-- The value names the callback, as a text or as the only key of an object with null. -/
inductive Names : Json → Callback → Prop
  | text (callback : Callback) : Names (.str callback.name) callback
  | key (callback : Callback) : Names (.obj [(callback.name, .null)]) callback

/-- The fields have the shape of a callback. -/
def AsksFor (fields : List (String × Json)) (callback : Callback) (name : String) : Prop :=
  (∃ value, OccursOnce "callback" value fields ∧ value.Names callback) ∧
    OccursOnce "params" (.str name) fields

/-- The fields have the shape of a failure. -/
def TellsFailure (fields : List (String × Json)) (text : String) : Prop :=
  OccursOnce "error" (.str text) fields

/-- The value stands for the message: its first shape decides. In a result repeated keys are
resolved. -/
inductive StandsFor : Json → Message → Prop
  | callback {fields : List (String × Json)} {callback : Callback} {name : String} :
      AsksFor fields callback name → StandsFor (.obj fields) (.callback callback name)
  | failure {fields : List (String × Json)} {text : String} :
      (¬∃ callback name, AsksFor fields callback name) → TellsFailure fields text →
      StandsFor (.obj fields) (.failure text)
  | success {fields : List (String × Json)} {result : Json} :
      (¬∃ callback name, AsksFor fields callback name) → (¬∃ text, TellsFailure fields text) →
      OccursOnce "result" result fields → StandsFor (.obj fields) (.success result.merged)

theorem occursOnce_iff {key : String} {value : Json} {fields : List (String × Json)} :
    OccursOnce key value fields ↔ fields.filter (·.1 = key) = [(key, value)] := by
  simp only [OccursOnce, List.filter_eq_cons_iff, List.filter_eq_nil_iff, decide_eq_true_eq,
    List.forall_mem_append, true_and]

end Json

namespace Message

open Json (OccursOnce AsksFor TellsFailure)

variable {fields : List (String × Json)} {key : String} {value : Json} {message : Message}

/-! ## The reader -/

theorem single?_eq_some_iff : single? key fields = some value ↔ OccursOnce key value fields := by
  rw [Json.occursOnce_iff, single?]
  split
  · rename_i name other hsingle
    have hname : name = key := by
      have hmem : (name, other) ∈ fields.filter (·.1 = key) := hsingle ▸ List.mem_singleton_self _
      exact of_decide_eq_true (List.mem_filter.mp hmem).2
    rw [hsingle, hname]
    simp
  · rename_i hne
    exact iff_of_false (by rintro ⟨⟩) fun hsingle ↦ hne key value hsingle

theorem callbackNamed?_eq_some_iff {name : String} {callback : Callback} :
    callbackNamed? name = some callback ↔ name = callback.name := by
  rw [callbackNamed?]
  by_cases hitem : name = "retrieveItem"
  · rw [if_pos hitem, hitem]
    cases callback <;> simp [Callback.name]
  · rw [if_neg hitem]
    cases callback <;> simp [Callback.name, hitem]

theorem callbackOfJson?_eq_some_iff {callback : Callback} :
    callbackOfJson? value = some callback ↔ value.Names callback := by
  constructor
  · intro h
    rw [callbackOfJson?.eq_def] at h
    split at h
    · rw [callbackNamed?_eq_some_iff.mp h]
      exact .text callback
    · rw [callbackNamed?_eq_some_iff.mp h]
      exact .key callback
    · cases h
  · rintro (_ | _)
    · exact callbackNamed?_eq_some_iff.mpr rfl
    · exact callbackNamed?_eq_some_iff.mpr rfl

theorem asCallback?_eq_some_iff :
    asCallback? fields = some message ↔
      ∃ callback name, AsksFor fields callback name ∧ message = .callback callback name := by
  have hcallback : ∀ callback, (single? "callback" fields).bind callbackOfJson? = some callback ↔
      ∃ value, OccursOnce "callback" value fields ∧ value.Names callback := by
    simp only [Option.bind_eq_some_iff, single?_eq_some_iff, callbackOfJson?_eq_some_iff,
      implies_true]
  have hname : ∀ name, (single? "params" fields).bind Json.text? = some name ↔
      OccursOnce "params" (.str name) fields := by
    simp only [Json.bind_text?_eq_some_iff, single?_eq_some_iff, implies_true]
  constructor
  · intro h
    obtain ⟨callback, hc, h⟩ := Option.bind_eq_some_iff.mp h
    obtain ⟨name, hn, h⟩ := Option.bind_eq_some_iff.mp h
    exact ⟨callback, name, ⟨(hcallback _).mp hc, (hname _).mp hn⟩, (Option.some.inj h).symm⟩
  · rintro ⟨callback, name, ⟨hc, hn⟩, rfl⟩
    rw [asCallback?, (hcallback _).mpr hc, (hname _).mpr hn]
    rfl

theorem asFailure?_eq_some_iff :
    asFailure? fields = some message ↔
      ∃ text, TellsFailure fields text ∧ message = .failure text := by
  have htext : ∀ text, (single? "error" fields).bind Json.text? = some text ↔
      TellsFailure fields text := by
    simp only [Json.bind_text?_eq_some_iff, single?_eq_some_iff, TellsFailure, implies_true]
  constructor
  · intro h
    obtain ⟨text, ht, h⟩ := Option.bind_eq_some_iff.mp h
    exact ⟨text, (htext _).mp ht, (Option.some.inj h).symm⟩
  · rintro ⟨text, ht, rfl⟩
    rw [asFailure?, (htext _).mpr ht]
    rfl

theorem asSuccess?_eq_some_iff :
    asSuccess? fields = some message ↔
      ∃ result, OccursOnce "result" result fields ∧ message = .success result.merged := by
  constructor
  · intro h
    obtain ⟨result, hresult, h⟩ := Option.bind_eq_some_iff.mp h
    exact ⟨result, single?_eq_some_iff.mp hresult, (Option.some.inj h).symm⟩
  · rintro ⟨result, hresult, rfl⟩
    rw [asSuccess?, single?_eq_some_iff.mpr hresult]
    rfl

theorem asCallback?_eq_none_iff :
    asCallback? fields = none ↔ ¬∃ callback name, AsksFor fields callback name := by
  rw [Option.eq_none_iff_forall_ne_some]
  simp only [ne_eq, asCallback?_eq_some_iff]
  constructor
  · rintro h ⟨callback, name, hasks⟩
    exact h _ ⟨callback, name, hasks, rfl⟩
  · rintro h message ⟨callback, name, hasks, -⟩
    exact h ⟨callback, name, hasks⟩

theorem asFailure?_eq_none_iff :
    asFailure? fields = none ↔ ¬∃ text, TellsFailure fields text := by
  rw [Option.eq_none_iff_forall_ne_some]
  simp only [ne_eq, asFailure?_eq_some_iff]
  constructor
  · rintro h ⟨text, htext⟩
    exact h _ ⟨text, htext, rfl⟩
  · rintro h message ⟨text, htext, -⟩
    exact h ⟨text, htext⟩

theorem ofJson?_eq_some_iff : ofJson? value = some message ↔ value.StandsFor message := by
  cases value with
  | obj fields =>
    rw [ofJson?]
    constructor
    · intro h
      cases hcallback : asCallback? fields with
      | some found =>
        rw [hcallback] at h
        cases h
        obtain ⟨callback, name, hasks, rfl⟩ := asCallback?_eq_some_iff.mp hcallback
        exact .callback hasks
      | none =>
        have hnoCallback := asCallback?_eq_none_iff.mp hcallback
        rw [hcallback] at h
        cases hfailure : asFailure? fields with
        | some found =>
          rw [hfailure] at h
          cases h
          obtain ⟨text, htext, rfl⟩ := asFailure?_eq_some_iff.mp hfailure
          exact .failure hnoCallback htext
        | none =>
          rw [hfailure] at h
          obtain ⟨result, hresult, rfl⟩ := asSuccess?_eq_some_iff.mp h
          exact .success hnoCallback (asFailure?_eq_none_iff.mp hfailure) hresult
    · intro h
      cases h with
      | callback hasks =>
        rw [asCallback?_eq_some_iff.mpr ⟨_, _, hasks, rfl⟩]
        rfl
      | failure hcallback htext =>
        rw [asCallback?_eq_none_iff.mpr hcallback, asFailure?_eq_some_iff.mpr ⟨_, htext, rfl⟩]
        rfl
      | success hcallback hfailure hresult =>
        rw [asCallback?_eq_none_iff.mpr hcallback, asFailure?_eq_none_iff.mpr hfailure,
          asSuccess?_eq_some_iff.mpr ⟨_, hresult, rfl⟩]
        rfl
  | _ => exact iff_of_false nofun nofun

/-! ## Other keys -/

/-- The keys by which messages are told apart. -/
def keys : List String := ["callback", "params", "error", "result"]

/-- Apart from the order, the fields with these keys are the same. -/
def SameKeys (fields others : List (String × Json)) : Prop :=
  (fields.filter (·.1 ∈ keys)).Perm (others.filter (·.1 ∈ keys))

theorem single?_eq_of_sameKeys {others : List (String × Json)} (h : SameKeys fields others)
    (hkey : key ∈ keys) : single? key fields = single? key others := by
  have hfilter : ∀ fields : List (String × Json),
      (fields.filter (·.1 ∈ keys)).filter (·.1 = key) = fields.filter (·.1 = key) := by
    intro fields
    rw [List.filter_filter]
    refine List.filter_congr fun field _ ↦ ?_
    by_cases hfield : field.1 = key
    · simp [hfield, hkey]
    · simp [hfield]
  have hperm : (fields.filter (·.1 = key)).Perm (others.filter (·.1 = key)) := by
    rw [← hfilter fields, ← hfilter others]
    exact List.Perm.filter _ h
  refine Option.ext fun value ↦ ?_
  rw [single?_eq_some_iff, single?_eq_some_iff, Json.occursOnce_iff, Json.occursOnce_iff]
  constructor
  · intro hsingle
    rw [hsingle] at hperm
    exact List.perm_singleton.mp hperm.symm
  · intro hsingle
    rw [hsingle] at hperm
    exact List.perm_singleton.mp hperm

/-- Nothing but the four keys matters, and not the order of the fields either. -/
theorem standsFor_iff_of_sameKeys {others : List (String × Json)} (h : SameKeys fields others) :
    (Json.obj fields).StandsFor message ↔ (Json.obj others).StandsFor message := by
  have hkeys : ∀ key ∈ keys, single? key fields = single? key others :=
    fun key hkey ↦ single?_eq_of_sameKeys h hkey
  simp only [keys, List.forall_mem_cons] at hkeys
  obtain ⟨hcallback, hparams, herror, hresult, -⟩ := hkeys
  rw [← ofJson?_eq_some_iff, ← ofJson?_eq_some_iff]
  simp only [ofJson?, asCallback?, asFailure?, asSuccess?, hcallback, hparams, herror, hresult]

/-! ## Lines -/

section Line

variable {text : String}

theorem ofLine_eq_ok_iff (h : Json.readAll? text = some value) :
    ofLine text = .ok message ↔ value.StandsFor message := by
  rw [← ofJson?_eq_some_iff, ofLine, h]
  dsimp only
  cases ofJson? value with
  | none => simp
  | some found => simp

theorem ofLine_of_not_standsFor (h : Json.readAll? text = some value)
    (hnone : ¬∃ message, value.StandsFor message) :
    ofLine text = .error (.unreadable (Text.trim text) true) := by
  have hread : ofJson? value = none := by
    rw [Option.eq_none_iff_forall_ne_some]
    intro message hmessage
    exact hnone ⟨message, ofJson?_eq_some_iff.mp hmessage⟩
  rw [ofLine, h]
  dsimp only
  rw [hread]

end Line

end Message

/-! ## A line that holds a value is not blank -/

namespace Json

theorem Lexer.isDigit_isAlpha_of_isBlank {c : Char} (h : Text.isBlank c) :
    c.isDigit = false ∧ c.isAlpha = false := by
  have hrange : ¬(48 ≤ c.toNat ∧ c.toNat ≤ 57) ∧ ¬(65 ≤ c.toNat ∧ c.toNat ≤ 90) ∧
      ¬(97 ≤ c.toNat ∧ c.toNat ≤ 122) := by
    simp only [Text.isBlank, Text.blankRanges, List.any_cons, List.any_nil, Bool.or_eq_true,
      Bool.and_eq_true, decide_eq_true_eq, Bool.false_eq_true, or_false] at h
    omega
  have halpha : c.isAlpha = (decide (c.val ≥ 65 ∧ c.val ≤ 90) ||
      decide (c.val ≥ 97) && decide (c.val ≤ 122)) := rfl
  simp [Char.isDigit, halpha, UInt32.le_iff_toNat_le]
  omega

/-- A blank in front of the first token is passed over, or it is none of those that may stand
there. -/
theorem Lexer.step_start_of_isBlank {c : Char} (h : Text.isBlank c) {l : Lexer}
    (hstep : step start c = some l) : l = start := by
  obtain ⟨hdigit, halpha⟩ := isDigit_isAlpha_of_isBlank h
  have hne : ∀ d, Text.isBlank d = false → c ≠ d := by
    rintro d hd rfl
    rw [hd] at h
    cases h
  change begin [] c = some l at hstep
  by_cases hspace : isSpace c
  · rw [begin, if_pos hspace] at hstep
    exact (Option.some.inj hstep).symm
  · simp [begin, hspace, hdigit, halpha, hne '[' rfl, hne ']' rfl, hne '{' rfl, hne '}' rfl,
      hne ',' rfl, hne ':' rfl, hne '"' rfl, hne '-' rfl] at hstep

theorem readAll?_eq_none_of_allBlank {text : String} (h : Text.allBlank text) :
    readAll? text = none := by
  rw [Option.eq_none_iff_forall_ne_some]
  intro value hvalue
  obtain ⟨ts, hts, hvalue⟩ := Option.bind_eq_some_iff.mp hvalue
  obtain ⟨l, hl, hfinish⟩ := Option.bind_eq_some_iff.mp hts
  have hblank : ∀ c ∈ text.toList, Text.isBlank c := List.all_eq_true.mp h
  -- the automaton never leaves its first state, so there are no tokens
  have hstart : l = Lexer.start := by
    refine foldlM_invariant (P := (· = Lexer.start)) ?_ rfl hl
    rintro _ c hc l' rfl hstep
    exact Lexer.step_start_of_isBlank (hblank c hc) hstep
  rw [hstart] at hfinish
  obtain rfl : [] = ts := Option.some.inj hfinish
  cases hvalue

end Json

/-! ## What the filter hears -/

namespace Heard

variable {line : Bytes} {text : String} {value : Json} {message : Message}

theorem exists_of_ofLine_eq_ofMessage (h : ofLine line = ofMessage message) :
    ∃ text value, line.toText? = some text ∧ Json.readAll? text = some value ∧
      value.StandsFor message := by
  rw [ofLine] at h
  cases htext : line.toText? with
  | none =>
    rw [htext] at h
    cases message <;> cases h
  | some text =>
    rw [htext] at h
    dsimp only at h
    by_cases hblank : Text.allBlank text
    · rw [if_pos hblank] at h
      cases message <;> cases h
    · rw [if_neg hblank] at h
      cases hfound : Message.ofLine text with
      | error fault =>
        rw [hfound] at h
        cases message <;> cases h
      | ok found =>
        rw [hfound] at h
        have hsame : found = message := by
          cases found <;> cases message <;> cases h <;> rfl
        rw [hsame] at hfound
        cases hvalue : Json.readAll? text with
        | none =>
          rw [Message.ofLine, hvalue] at hfound
          cases hfound
        | some value =>
          exact ⟨text, value, rfl, hvalue, (Message.ofLine_eq_ok_iff hvalue).mp hfound⟩

theorem ofLine_of_not_standsFor (htext : line.toText? = some text)
    (hvalue : Json.readAll? text = some value) (hnone : ¬∃ message, value.StandsFor message) :
    ofLine line = .unreadable (.engineProtocol (.unreadable (Text.trim text) true)) := by
  have hblank : ¬Text.allBlank text := by
    intro hblank
    rw [Json.readAll?_eq_none_of_allBlank hblank] at hvalue
    cases hvalue
  rw [ofLine, htext]
  dsimp only
  rw [if_neg hblank, Message.ofLine_of_not_standsFor hvalue hnone]

theorem eq_success_of_conclusion {missing : Option String} {heard : Heard} {result : Json}
    (h : conclusion missing (some heard) = .ok result) : heard = .success result := by
  cases heard with
  | success found =>
    cases missing with
    | none => exact congrArg success (Except.ok.inj h)
    | some id => cases h
  | _ => cases h

end Heard

namespace Conversation

/-- A request that succeeds has been ended by a line that stands for its result. -/
theorem exists_line_of_call_eq_ok {store : Store} {request : Request} {s s' : Conversation}
    {result : Json} (h : Step.runFrom (call store request) s = (.ok result, s')) :
    ∃ first last text value, s.unread = first ++ last :: s'.unread ∧
      (∀ line ∈ first, (Heard.ofLine line).goesOn) ∧
      last.toText? = some text ∧ Json.readAll? text = some value ∧
      value.StandsFor (.success result) := by
  rw [call, Step.runFrom_mk] at h
  rcases hsend : s.outbox.send request.toJson with ⟨cause | _, outbox⟩
  · rw [hsend] at h
    cases h
  · obtain ⟨read, rest, found, outbox', hlisten, hread, hends⟩ :=
      exists_ends store none s.unread outbox
    have hrun : (found, (⟨rest, outbox'⟩ : Conversation)) = (.ok result, s') := by
      rw [← hlisten, ← h, hsend]
      rfl
    obtain ⟨hfound, rfl⟩ := Prod.mk.inj hrun
    cases hends with
    | closed => cases hfound
    | broken => cases hfound
    | @concluded first _ last hfirst hlast =>
      have hsuccess := Heard.eq_success_of_conclusion hfound
      obtain ⟨text, value, htext, hvalue, hstands⟩ :=
        @Heard.exists_of_ofLine_eq_ofMessage last (.success result) hsuccess
      exact ⟨first, last, text, value, by rw [hread, List.append_assoc]; rfl, hfirst, htext, hvalue,
        hstands⟩

end Conversation

namespace Message

/-- **The first shape decides.** A line that holds a value is read as the message that the value
stands for, and if it stands for none the engine has broken the rules. The message depends on the
fields with the four keys only, in whatever order they stand and whatever others stand between them.
A line that stands for no message ends the request with a failure, and if a request succeeds, it has
been ended by a line that stands for its result. -/
theorem first_shape_decides :
    (∀ text value, Json.readAll? text = some value →
      (∀ message, ofLine text = .ok message ↔ value.StandsFor message) ∧
      ((¬∃ message, value.StandsFor message) →
        ofLine text = .error (.unreadable (Text.trim text) true))) ∧
    (∀ fields others, SameKeys fields others → ∀ message,
      (Json.obj fields).StandsFor message ↔ (Json.obj others).StandsFor message) ∧
    (∀ (line : Bytes) text value, line.toText? = some text → Json.readAll? text = some value →
      (¬∃ message, value.StandsFor message) → ∀ store missing rest outbox,
        Conversation.listen store (Option.map .itemNotFound missing) (line :: rest) outbox
          = (.error (.engineProtocol (.unreadable (Text.trim text) true)), ⟨rest, outbox⟩)) ∧
    ∀ store request s s' result,
      Step.runFrom (Conversation.call store request) s = (.ok result, s') →
      ∃ first last text value, s.unread = first ++ last :: s'.unread ∧
        (∀ line ∈ first, (Heard.ofLine line).goesOn) ∧
        last.toText? = some text ∧ Json.readAll? text = some value ∧
        value.StandsFor (.success result) := by
  refine ⟨fun text value hvalue ↦ ⟨fun message ↦ ofLine_eq_ok_iff hvalue,
      ofLine_of_not_standsFor hvalue⟩,
    fun fields others h message ↦ standsFor_iff_of_sameKeys h, ?_,
    fun store request s s' result h ↦ Conversation.exists_line_of_call_eq_ok h⟩
  intro line text value htext hvalue hnone store missing rest outbox
  have heard := Heard.ofLine_of_not_standsFor htext hvalue hnone
  have hend : (Heard.ofLine line).goesOn = false := by
    rw [heard]
    rfl
  rw [Conversation.listen_of_not_goesOn hend, heard]
  rfl

/-- A callback without a name and a failure without a text, beside a result: the line stands for the
result. A callback with its name given twice stands for nothing. -/
theorem first_shape_decides_sample :
    let beside : Json := .obj [("callback", .str "retrieveItem"), ("params", .num (.int 1)),
      ("id", .str "a"), ("error", .null), ("result", .arr [])]
    let repeated : Json := .obj [("callback", .obj [("retrieveItem", .null)]),
      ("params", .str "a"), ("params", .str "a")]
    ofLine beside.text = .ok (.success (.arr [])) ∧
      ofLine repeated.text = .error (.unreadable (Text.trim repeated.text) true) := by
  intro beside repeated
  have hbeside : Json.readAll? beside.text = some beside :=
    Json.readAll?_text (by decide +kernel) rfl
  have hrepeated : Json.readAll? repeated.text = some repeated :=
    Json.readAll?_text (by decide +kernel) rfl
  obtain ⟨hread, -, -, -⟩ := first_shape_decides
  constructor
  · refine ((hread _ _ hbeside).1 _).mpr (@Json.StandsFor.success _ (.arr []) ?_ ?_ ?_)
    · rintro ⟨callback, name, -, hparams⟩
      cases Json.occursOnce_iff.mp hparams
    · rintro ⟨text, herror⟩
      cases Json.occursOnce_iff.mp herror
    · exact Json.occursOnce_iff.mpr rfl
  · refine (hread _ _ hrepeated).2 ?_
    rintro ⟨message, hmessage⟩
    have hnone : ofJson? repeated = none := rfl
    rw [← ofJson?_eq_some_iff, hnone] at hmessage
    cases hmessage

end Message

end CitationFilter
