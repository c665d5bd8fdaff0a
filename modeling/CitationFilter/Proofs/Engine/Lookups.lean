import CitationFilter.Proofs.Engine.Turns

/-!
# What becomes of a failed lookup

An engine that asks for an item that is not there is told so, and the filter remembers the first
such item. What is remembered decides the result if the engine ends the request itself, be it with a
result or with a failure. The other ways in which a request can come to its end pass it by: the
engine closes its output, says something that cannot be understood, or no longer takes an answer.

So the theorem here has two sides, and neither of them is empty.
-/

namespace CitationFilter

theorem Heard.cause_of_unreadable {line : Bytes} {cause : Error}
    (h : ofLine line = .unreadable cause) :
    cause = .engineIo .invalidText ∨ ∃ fault, cause = .engineProtocol fault := by
  rw [ofLine] at h
  cases htext : line.toText? with
  | none =>
    rw [htext] at h
    cases h
    exact Or.inl rfl
  | some text =>
    rw [htext] at h
    dsimp only at h
    by_cases hblank : Text.allBlank text
    · rw [if_pos hblank] at h
      cases h
    · rw [if_neg hblank] at h
      cases hmessage : Message.ofLine text with
      | error fault =>
        rw [hmessage] at h
        cases h
        exact Or.inr ⟨fault, rfl⟩
      | ok message =>
        rw [hmessage] at h
        cases message <;> cases h

/-- With an item missing, the engine cannot end the request in any other way. -/
theorem Heard.conclusion_of_ends {heard : Heard} (h : heard.ends) (id : String) :
    conclusion (some id) (some heard) = .error (.itemNotFound id) := by
  cases heard with
  | blank => cases h
  | asks query => cases h
  | failure text => rfl
  | success result => rfl
  | unreadable cause => cases h

theorem Heard.exists_eq_unreadable {heard : Heard} (hgoesOn : heard.goesOn = false)
    (hends : heard.ends = false) : ∃ cause, heard = .unreadable cause := by
  cases heard with
  | blank => cases hgoesOn
  | asks query => cases hgoesOn
  | failure text => cases hends
  | success result => cases hends
  | unreadable cause => exact ⟨cause, rfl⟩

namespace Conversation

/-- How a request can fail although the engine has not ended it. -/
def BrokenOff (result : Except Error Json) : Prop :=
  result = .error .engineClosed ∨ (∃ cause, result = .error (.engineIo cause)) ∨
    ∃ fault, result = .error (.engineProtocol fault)

theorem BrokenOff.ne_itemNotFound {result : Except Error Json} (h : BrokenOff result)
    (id : String) : result ≠ .error (.itemNotFound id) := by
  rcases h with rfl | ⟨cause, rfl⟩ | ⟨fault, rfl⟩ <;> rintro ⟨⟩

theorem queries_append_of_not_goesOn {first : List Bytes} {last : Bytes}
    (h : (Heard.ofLine last).goesOn = false) : queries (first ++ [last]) = queries first := by
  have hnone : queries [last] = [] := by
    cases hlast : Heard.ofLine last with
    | blank => rw [hlast] at h; cases h
    | asks query => rw [hlast] at h; cases h
    | failure text => simp [queries, hlast, Heard.query?]
    | success result => simp [queries, hlast, Heard.query?]
    | unreadable cause => simp [queries, hlast, Heard.query?]
  rw [queries_append, hnone, List.append_nil]

theorem ends_eq_false_of_goesOn {line : Bytes} (h : (Heard.ofLine line).goesOn) :
    (Heard.ofLine line).ends = false := by
  rcases Heard.eq_of_goesOn h with heard | ⟨query, heard⟩ <;> rw [heard] <;> rfl

/-- With an item missing, the engine ends the request and the item is what it fails with, or neither
is the case. -/
theorem Ends.result_of_missing {store : Store} {read rest : List Bytes}
    {result : Except Error Json} {id : String} (h : Ends store none read rest result)
    (hmissing : Query.firstMissing store (queries read) = some id) :
    (result = .error (.itemNotFound id) ∧ ∃ last ∈ read.getLast?, (Heard.ofLine last).ends) ∨
      (BrokenOff result ∧ ¬∃ last ∈ read.getLast?, (Heard.ofLine last).ends) := by
  cases h with
  | closed hread =>
    refine Or.inr ⟨Or.inl rfl, ?_⟩
    rintro ⟨last, hlast, hends⟩
    have hgoesOn := hread last (List.mem_of_getLast? hlast)
    rw [ends_eq_false_of_goesOn hgoesOn] at hends
    cases hends
  | concluded hfirst hlast =>
    rename_i first last
    rw [queries_append_of_not_goesOn hlast] at hmissing
    rw [hmissing, Option.none_or, List.getLast?_concat]
    by_cases hends : (Heard.ofLine last).ends
    · exact Or.inl ⟨Heard.conclusion_of_ends hends id, last, rfl, hends⟩
    · -- what neither lets the filter go on nor ends the request is unreadable, and its cause wins
      obtain ⟨cause, heard⟩ := Heard.exists_eq_unreadable hlast (Bool.eq_false_iff.mpr hends)
      refine Or.inr ⟨?_, ?_⟩
      · rw [heard]
        rcases Heard.cause_of_unreadable heard with rfl | ⟨fault, rfl⟩
        · exact Or.inr (Or.inl ⟨_, rfl⟩)
        · exact Or.inr (Or.inr ⟨_, rfl⟩)
      · rintro ⟨_, ⟨⟩, h⟩
        exact hends h
  | broken hfirst hlast =>
    refine Or.inr ⟨Or.inr (Or.inl ⟨_, rfl⟩), ?_⟩
    rintro ⟨_, hmem, hends⟩
    rw [List.getLast?_concat] at hmem
    cases hmem
    rw [hlast] at hends
    cases hends

theorem exists_runFrom_call_eq (store : Store) (request : Request) (s : Conversation) :
    ∃ result s' read, Step.runFrom (call store request) s = (result, s') ∧
      s.unread = read ++ s'.unread ∧ (read = [] ∨ Ends store none read s'.unread result) := by
  rw [call, Step.runFrom_mk]
  rcases s.outbox.send request.toJson with ⟨cause | _, outbox⟩
  · exact ⟨_, _, [], rfl, rfl, Or.inl rfl⟩
  · obtain ⟨read, rest, result, outbox', hlisten, hread, hends⟩ :=
      exists_ends store none s.unread outbox
    exact ⟨result, ⟨rest, outbox'⟩, read, hlisten, hread, Or.inr hends⟩

/-- **Failed lookups.** If an item is asked for that is not there, the request fails in any case. It
fails with the first such item exactly if the engine ends the request. -/
theorem failed_lookup_reported_iff (store : Store) (request : Request) (s : Conversation) :
    ∃ result s' read, Step.runFrom (call store request) s = (result, s') ∧
      s.unread = read ++ s'.unread ∧
      ∀ id, Query.firstMissing store (queries read) = some id →
        (result = .error (.itemNotFound id) ↔
          ∃ last ∈ read.getLast?, (Heard.ofLine last).ends) ∧
        (result = .error (.itemNotFound id) ∨ BrokenOff result) := by
  obtain ⟨result, s', read, hrun, hread, hnil | hends⟩ := exists_runFrom_call_eq store request s
  · refine ⟨result, s', read, hrun, hread, ?_⟩
    intro id hid
    rw [hnil] at hid
    cases hid
  · refine ⟨result, s', read, hrun, hread, ?_⟩
    intro id hid
    rcases hends.result_of_missing hid with ⟨hresult, hlast⟩ | ⟨hbroken, hlast⟩
    · exact ⟨iff_of_true hresult hlast, Or.inl hresult⟩
    · exact ⟨iff_of_false (hbroken.ne_itemNotFound id) hlast, Or.inr hbroken⟩

/-- An item that is not there need not be what the request fails with: here the engine closes its
output after it has asked for it. -/
theorem lookup_forgotten :
    ¬∀ (store : Store) (request : Request) (s s' : Conversation) (read : List Bytes)
      (result : Except Error Json) (id : String),
      Step.runFrom (call store request) s = (result, s') → s.unread = read ++ s'.unread →
      Query.firstMissing store (queries read) = some id →
      result = .error (.itemNotFound id) := by
  intro hclaim
  have heard :
      Heard.ofLine (Bytes.ofText "\x7b\"callback\":\"retrieveItem\",\"params\":\"ghost\"\x7d")
        = .asks ⟨.item, "ghost"⟩ :=
    @Heard.ofLine_ofText _ (.callback .item "ghost") rfl rfl
  generalize Bytes.ofText "\x7b\"callback\":\"retrieveItem\",\"params\":\"ghost\"\x7d" = line
    at heard
  have hgoesOn : ∀ first ∈ [line], (Heard.ofLine first).goesOn := by
    rw [List.forall_mem_singleton, heard]
    rfl
  have hrun := @runFrom_call_append ⟨[], []⟩ (.setOutputFormat "html") ⟨[], none⟩ [line] hgoesOn
    (Outbox.takes_of_room_eq_none rfl _) []
  have hmissing : Query.firstMissing ⟨[], []⟩ (queries [line]) = some "ghost" := by
    rw [queries_asks heard]
    rfl
  cases hclaim _ _ _ _ [line] _ "ghost" hrun (List.append_nil _) hmissing

end Conversation

end CitationFilter
