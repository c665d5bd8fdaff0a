import CitationFilter.Engine.Conversation
import CitationFilter.Proofs.Engine.Record

/-!
# Which lines of a conversation are requests

Two kinds of lines go to an engine: requests, which are objects with the field `method` in front,
and the answers to its callbacks, which are objects with only the field `result` or `error`. A line
shows its kind in its first characters, so the requests of a conversation can be read off the lines
that were sent.

While the engine is listened to only answers are sent. A request therefore sends one request line,
and not even that one if the line does not fit into what the engine still takes. So the request
lines are those of the record, and after a failure the last one may be missing.
-/

namespace CitationFilter

/-! ## The start of a line -/

/-- How the text of an object begins that has this key in front. -/
def Json.opening (key : String) : List Char :=
  [Token.openObject, .str key, .colon].flatMap Token.chars

theorem Json.opening_prefix_text (key : String) (value : Json) (rest : List (String × Json)) :
    opening key <+: (obj ((key, value) :: rest)).text.toList := by
  rw [text, String.toList_ofList, opening]
  have htokens : [Token.openObject, .str key, .colon] <+: (obj ((key, value) :: rest)).tokens := by
    cases rest with
    | nil => exact List.prefix_append _ _
    | cons field rest => exact List.prefix_append _ _
  obtain ⟨others, hothers⟩ := htokens
  rw [← hothers, List.flatMap_append]
  exact List.prefix_append _ _

namespace Request

/-- The line that makes a request. -/
def line (request : Request) : String := request.toJson.text

/-- Whether a line makes a request, as its first characters tell. -/
def isLine (line : String) : Bool := (Json.opening "method").isPrefixOf line.toList

theorem isLine_line (request : Request) : isLine request.line = true := by
  rw [isLine, List.isPrefixOf_iff_prefix]
  exact Json.opening_prefix_text "method" _ _

/-- A text that begins like an object with another key in front is no request. -/
theorem isLine_text_of_opening {key : String} (value : Json) (rest : List (String × Json))
    (hleft : ¬Json.opening "method" <+: Json.opening key)
    (hright : ¬Json.opening key <+: Json.opening "method") :
    isLine (Json.obj ((key, value) :: rest)).text = false := by
  refine Bool.eq_false_iff.mpr fun h ↦ ?_
  rw [isLine, List.isPrefixOf_iff_prefix] at h
  rcases List.prefix_or_prefix_of_prefix h (Json.opening_prefix_text key value rest) with h | h
  · exact hleft h
  · exact hright h

end Request

open Request (isLine)

theorem Conversation.isLine_reply (found : Except Error Json) :
    isLine (reply found).text = false := by
  cases found with
  | ok value => exact Request.isLine_text_of_opening value [] (by decide) (by decide)
  | error e => exact Request.isLine_text_of_opening (.str e.message) [] (by decide) (by decide)

/-! ## The requests among the lines that were sent -/

/-- The lines that were sent and make requests, in order. -/
def Outbox.requestLines (outbox : Outbox) : List String := outbox.sent.filter isLine

section Send

variable {outbox outbox' : Outbox} {message : Json}

theorem Outbox.sent_of_send (h : outbox.send message = (.ok (), outbox')) :
    outbox'.sent = outbox.sent ++ [message.text] := by
  rw [send, sendLine] at h
  split at h
  · cases h
    rfl
  · dsimp only at h
    split at h <;> cases h
    rfl

theorem Outbox.sent_of_send_error {cause : StreamError}
    (h : outbox.send message = (.error cause, outbox')) : outbox'.sent = outbox.sent := by
  rw [send, sendLine] at h
  split at h
  · cases h
  · dsimp only at h
    split at h <;> cases h
    rfl

end Send

namespace Conversation

/-- Listening to the engine makes no requests. -/
theorem requestLines_listen (store : Store) (failure : Option Error) (lines : List Bytes)
    (outbox : Outbox) :
    (listen store failure lines outbox).2.outbox.requestLines = outbox.requestLines := by
  fun_induction listen store failure lines outbox with
  | case1 => rfl
  | case2 => rfl
  | case3 failure line rest outbox text _ _ ih => exact ih
  | case4 => rfl
  | case5 failure line rest outbox text _ _ callback name _ _ outbox' hsend ih =>
    -- the line that was sent is an answer, so the filter drops it
    rw [ih, Outbox.requestLines, Outbox.sent_of_send hsend, List.filter_append,
      List.filter_cons_of_neg (by rw [isLine_reply]; exact Bool.false_ne_true), List.filter_nil,
      List.append_nil, Outbox.requestLines]
  | case6 failure line rest outbox text _ _ callback name _ _ cause outbox' hsend =>
    rw [Outbox.requestLines, Outbox.sent_of_send_error hsend, Outbox.requestLines]
  | case7 => rfl
  | case8 => rfl

/-- The step makes one request. Its line is the last request line from then on, unless the step
fails before it is sent. -/
def Makes {α : Type} (request : Request) (step : Step Conversation α) : Prop :=
  ∀ ⦃s result s'⦄, Step.runFrom step s = (result, s') →
    s'.outbox.requestLines = s.outbox.requestLines ++ [request.line] ∨
      (∃ e, result = .error e) ∧ s'.outbox.requestLines = s.outbox.requestLines

theorem call_makes (store : Store) (request : Request) : Makes request (call store request) := by
  intro s result s' h
  rw [call, Step.runFrom_mk] at h
  split at h
  · rename_i outbox hsend
    have hlines : s'.outbox.requestLines = outbox.requestLines := by
      rw [← requestLines_listen store none s.unread outbox, h]
    have hline : isLine request.toJson.text = true := Request.isLine_line request
    rw [hlines, Outbox.requestLines, Outbox.sent_of_send hsend, List.filter_append,
      List.filter_cons_of_pos hline, List.filter_nil]
    exact Or.inl rfl
  · rename_i cause outbox hsend
    cases h
    refine Or.inr ⟨⟨_, rfl⟩, ?_⟩
    rw [Outbox.requestLines, Outbox.sent_of_send_error hsend, Outbox.requestLines]

/-- What follows a request and sends nothing makes no other request. -/
theorem Makes.bind {α β : Type} {request : Request} {step : Step Conversation α}
    {f : α → Step Conversation β} (h : Makes request step)
    (hf : ∀ a s, (Step.runFrom (f a) s).2 = s) : Makes request (step >>= f) := by
  intro s result s' hrun
  rcases hstep : Step.runFrom step s with ⟨e | a, s₁⟩
  · rw [Step.runFrom_bind_of_error hstep] at hrun
    cases hrun
    rcases h hstep with hmade | ⟨-, hnone⟩
    · exact Or.inl hmade
    · exact Or.inr ⟨⟨e, rfl⟩, hnone⟩
  · rw [Step.runFrom_bind_of_ok hstep] at hrun
    have hstate : s' = s₁ := by rw [← hf a s₁, hrun]
    rcases h hstep with hmade | ⟨⟨e, herror⟩, -⟩
    · rw [hstate]
      exact Or.inl hmade
    · cases herror

theorem tell_makes (store : Store) (request : Request) : Makes request (tell store request) :=
  (call_makes store request).bind fun _ _ ↦ rfl

theorem ask_makes {α : Type} (store : Store) (request : Request)
    (read : Json → Except ProtocolFault α) : Makes request (ask store request read) :=
  (call_makes store request).bind fun _ _ ↦ rfl

/-! ## Lines and records -/

/-- The request lines that were sent are those of the record. -/
def UpToDate (t : Conversation × List Call) : Prop :=
  t.1.outbox.requestLines = (t.2.map Call.request).map Request.line

/-- The request lines that were sent are those of the record, or all of them but the last. -/
def UpToLast (t : Conversation × List Call) : Prop :=
  ∃ sent : List Request, t.1.outbox.requestLines = sent.map Request.line ∧
    t.2.dropLast.map Call.request <+: sent ∧ sent <+: t.2.map Call.request

theorem UpToDate.upToLast {t : Conversation × List Call} (h : UpToDate t) : UpToLast t :=
  ⟨t.2.map Call.request, h, (List.dropLast_prefix t.2).map _, List.prefix_refl _⟩

/-- The step keeps the record in line with what is sent. -/
structure KeepsRecord {α : Type} (p : Step (Conversation × List Call) α) : Prop where
  ok : ∀ ⦃t a t'⦄, UpToDate t → Step.runFrom p t = (.ok a, t') → UpToDate t'
  error : ∀ ⦃t e t'⦄, UpToDate t → Step.runFrom p t = (.error e, t') → UpToLast t'

theorem keepsRecord_congruence (E : Error → Prop) :
    Step.Congruence E fun (p _ : Step (Conversation × List Call) _) ↦ KeepsRecord p where
  lift {α x} _ := by
    refine ⟨fun t a t' ht h ↦ ?_, fun t e t' ht h ↦ ?_⟩
    · obtain ⟨-, rfl⟩ := Step.runFrom_lift_eq_ok.mp h
      exact ht
    · rw [Step.runFrom_lift] at h
      cases h
      exact ht.upToLast
  bind {α β p q f g} hp hf := by
    refine ⟨fun t b t' ht h ↦ ?_, fun t e t' ht h ↦ ?_⟩
    · obtain ⟨a, t₁, hfirst, hsecond⟩ := Step.runFrom_bind_eq_ok.mp h
      exact (hf a).ok (hp.ok ht hfirst) hsecond
    · rcases Step.runFrom_bind_eq_error.mp h with hfirst | ⟨a, t₁, hfirst, hsecond⟩
      · exact hp.error ht hfirst
      · exact (hf a).error (hp.ok ht hfirst) hsecond

theorem Makes.keepsRecord {α : Type} {request : Request} {step : Step Conversation α}
    (h : Makes request step) (answer : α → Answer) :
    KeepsRecord (Step.recorded request answer step) := by
  refine ⟨?_, ?_⟩
  · rintro ⟨s, record⟩ a t' ht hrun
    obtain ⟨s', hstep, rfl⟩ := Step.runFrom_recorded_eq_ok hrun
    rcases h hstep with hmade | ⟨⟨e, herror⟩, -⟩
    · show s'.outbox.requestLines = _
      rw [hmade, ht, List.map_append, List.map_append]
      rfl
    · cases herror
  · rintro ⟨s, record⟩ e t' ht hrun
    obtain ⟨s', hstep, rfl⟩ := Step.runFrom_recorded_eq_error hrun
    have hbefore : (record ++ [(⟨request, .error e⟩ : Call)]).dropLast = record :=
      List.dropLast_concat
    rw [UpToLast, hbefore, List.map_append]
    rcases h hstep with hmade | ⟨-, hnone⟩
    · refine ⟨record.map Call.request ++ [request], ?_, List.prefix_append _ _, List.prefix_refl _⟩
      rw [hmade, ht, List.map_append]
      rfl
    · exact ⟨record.map Call.request, hnone.trans ht, List.prefix_refl _, List.prefix_append _ _⟩

theorem engine_keepsRecord (store : Store) :
    Engine.Related (fun (p _ : Step (Conversation × List Call) _) ↦ KeepsRecord p)
      (engine store).recorded (engine store).recorded where
  setOutputFormat _ := (tell_makes store _).keepsRecord _
  updateItems _ := (tell_makes store _).keepsRecord _
  updateUncitedItems _ := (tell_makes store _).keepsRecord _
  processCluster _ _ _ := (ask_makes store _ _).keepsRecord _
  makeBibliography := (ask_makes store _ _).keepsRecord _

end Conversation

end CitationFilter
