import CitationFilter.Proofs.Engine.Room
import CitationFilter.Proofs.Library.Store

/-!
# What the engine says and what it is told

A line of the engine is one of five things to the filter (`Heard`): it is blank, it asks for
something, it ends the request with a failure or with a result, or it cannot be understood. Only
after the first two does the filter go on reading.

What a query is answered is a function of the store (`Query.answer`), said here without the lookups
that the filter makes. `Conversation.listen_cons` then tells in one place all that one line can do,
and the two lemmas behind it tell what a whole run does: as long as there is room for the answers,
lines that go on are passed over and leave their answers behind (`listen_append`), whatever comes
after them, and the first other line is the end (`listen_of_not_goesOn`).
-/

namespace CitationFilter

/-! ## Queries -/

/-- What a callback asks for. -/
structure Query where
  /-- Whether it asks for an item or for a locale. -/
  callback : Callback
  /-- The id of the item or the language of the locale. -/
  name : String
deriving DecidableEq, Repr

namespace Query

/-- The message that answers a query. An item comes with its id as a text, and of several items
with one id it is the first. A locale that is not there is null. -/
def answer (store : Store) (query : Query) : Json :=
  match query.callback with
  | .item =>
    match store.items.find? fun item ↦ item.id = query.name with
    | some item => .obj [("result", .obj (("id", .str query.name) :: item.fields))]
    | none => .obj [("error", .str (Error.itemNotFound query.name).message)]
  | .locale => .obj [("result", (store.locales.lookup query.name).elim .null .str)]

/-- Whether the query asks for an item that is not in the store. -/
def isMissing (store : Store) (query : Query) : Bool :=
  query.callback = .item ∧ query.name ∉ store.ids

/-- The id of the first item that is asked for and is not in the store. -/
def firstMissing (store : Store) (queries : List Query) : Option String :=
  (queries.find? (isMissing store)).map name

theorem firstMissing_append (store : Store) (queries more : List Query) :
    firstMissing store (queries ++ more)
      = (firstMissing store queries).or (firstMissing store more) := by
  rw [firstMissing, List.find?_append, Option.map_or, firstMissing, firstMissing]

theorem reply_lookUp (store : Store) (query : Query) :
    Conversation.reply (Conversation.lookUp store query.name query.callback)
      = query.answer store := by
  obtain ⟨callback, name⟩ := query
  cases callback with
  | locale => rfl
  | item =>
    rw [Conversation.lookUp, Store.retrieve_eq_find?, answer]
    dsimp only
    cases hfind : store.items.find? fun item ↦ item.id = name with
    | some item =>
      have hid : item.id = name := of_decide_eq_true (List.find?_some hfind :)
      rw [← hid]
      rfl
    | none => rfl

/-- The filter remembers the first item that it did not find. -/
theorem remember_lookUp (store : Store) (query : Query) (missing : Option String) :
    Conversation.remember (missing.map Error.itemNotFound)
        (Conversation.lookUp store query.name query.callback)
      = (missing.or (firstMissing store [query])).map Error.itemNotFound := by
  obtain ⟨callback, name⟩ := query
  cases callback with
  | locale => simp [firstMissing, isMissing, Conversation.lookUp, Conversation.remember]
  | item =>
    by_cases hid : name ∈ store.ids
    · obtain ⟨item, hitem⟩ := Store.exists_retrieve_of_mem hid
      rw [Conversation.lookUp, hitem]
      simp [firstMissing, isMissing, hid, Except.map, Conversation.remember]
    · rw [Conversation.lookUp, Store.retrieve_of_not_mem hid]
      cases missing <;> simp [firstMissing, isMissing, hid, Except.map, Conversation.remember]

end Query

/-! ## Lines -/

/-- What a line of the engine is to the filter. -/
inductive Heard where
  | blank
  /-- Asks for something and waits for the answer. -/
  | asks (query : Query)
  /-- Ends the request with a failure. -/
  | failure (text : String)
  /-- Ends the request with a result. -/
  | success (result : Json)
  /-- Is no text or no message; the request fails with the cause. -/
  | unreadable (cause : Error)

namespace Heard

/-- What a message is to the filter. -/
def ofMessage : Message → Heard
  | .callback callback name => .asks ⟨callback, name⟩
  | .failure text => .failure text
  | .success result => .success result

/-- What a line is to the filter. -/
def ofLine (line : Bytes) : Heard :=
  match line.toText? with
  | none => .unreadable (.engineIo .invalidText)
  | some text =>
    if Text.allBlank text then .blank
    else
      match Message.ofLine text with
      | .ok message => ofMessage message
      | .error fault => .unreadable (.engineProtocol fault)

theorem ofLine_ofText {text : String} {message : Message} (hblank : Text.allBlank text = false)
    (h : Message.ofLine text = .ok message) : ofLine (Bytes.ofText text) = ofMessage message := by
  rw [ofLine, Bytes.toText?_ofText]
  dsimp only
  rw [if_neg (Bool.eq_false_iff.mp hblank), h]

/-- Whether the filter goes on reading after it. -/
def goesOn : Heard → Bool
  | .blank => true
  | .asks _ => true
  | _ => false

theorem eq_of_goesOn {heard : Heard} (h : heard.goesOn) :
    heard = .blank ∨ ∃ query, heard = .asks query := by
  cases heard with
  | blank => exact Or.inl rfl
  | asks query => exact Or.inr ⟨query, rfl⟩
  | failure text => cases h
  | success result => cases h
  | unreadable cause => cases h

/-- Whether the engine ends the request with it. -/
def ends : Heard → Bool
  | .failure _ => true
  | .success _ => true
  | _ => false

/-- What it asks for, if it asks for something. -/
def query? : Heard → Option Query
  | .asks query => some query
  | _ => none

/-- What a request comes to when this is the last thing that is heard, or when the engine has closed
its output, given the first item that was not found. A blank line and a query are never the last
thing that is heard. -/
def conclusion (missing : Option String) : Option Heard → Except Error Json
  | some (.success result) => missing.elim (.ok result) fun id ↦ .error (.itemNotFound id)
  | some (.failure text) => .error (missing.elim (.engine text) .itemNotFound)
  | some (.unreadable cause) => .error cause
  | _ => .error .engineClosed

end Heard

namespace Conversation

/-- What the engine asks for in some lines, in order. -/
def queries (lines : List Bytes) : List Query :=
  lines.filterMap fun line ↦ (Heard.ofLine line).query?

/-- The lines that answer the queries among some lines, in order. -/
def replies (store : Store) (lines : List Bytes) : List String :=
  (queries lines).map fun query ↦ (query.answer store).text

theorem queries_append (lines more : List Bytes) :
    queries (lines ++ more) = queries lines ++ queries more :=
  List.filterMap_append

theorem queries_cons (line : Bytes) (lines : List Bytes) :
    queries (line :: lines) = queries [line] ++ queries lines :=
  queries_append [line] lines

theorem queries_blank {line : Bytes} (h : Heard.ofLine line = .blank) : queries [line] = [] := by
  simp [queries, h, Heard.query?]

theorem queries_asks {line : Bytes} {query : Query} (h : Heard.ofLine line = .asks query) :
    queries [line] = [query] := by
  simp [queries, h, Heard.query?]

/-! ## One line -/

theorem listen_cons (store : Store) (missing : Option String) (line : Bytes) (rest : List Bytes)
    (outbox : Outbox) :
    listen store (missing.map .itemNotFound) (line :: rest) outbox =
      match Heard.ofLine line with
      | .blank => listen store (missing.map .itemNotFound) rest outbox
      | .asks query =>
        match outbox.send (query.answer store) with
        | (.ok (), outbox) =>
          listen store ((missing.or (Query.firstMissing store [query])).map .itemNotFound) rest
            outbox
        | (.error cause, outbox) => (.error (.engineIo cause), ⟨rest, outbox⟩)
      | heard => (Heard.conclusion missing (some heard), ⟨rest, outbox⟩) := by
  rw [listen, Heard.ofLine]
  cases line.toText? with
  | none => rfl
  | some text =>
    dsimp only
    by_cases hblank : Text.allBlank text
    · rw [if_pos hblank, if_pos hblank]
    · rw [if_neg hblank, if_neg hblank]
      cases Message.ofLine text with
      | error fault => rfl
      | ok message =>
        cases message with
        | callback callback name =>
          have hreply := Query.reply_lookUp store ⟨callback, name⟩
          have hremember := Query.remember_lookUp store ⟨callback, name⟩ missing
          dsimp only [Heard.ofMessage] at hreply hremember ⊢
          rewrite [hreply, hremember]
          rcases outbox.send _ with ⟨_ | _, _⟩ <;> rfl
        | failure text => cases missing <;> rfl
        | success result => cases missing <;> rfl

/-! ## Runs of lines -/

section Runs

variable {store : Store} {missing : Option String} {first rest : List Bytes} {line : Bytes}
  {outbox : Outbox}

/-- A line after which the filter does not go on is the end, and the lines behind it stay. -/
theorem listen_of_not_goesOn (h : (Heard.ofLine line).goesOn = false) :
    listen store (missing.map .itemNotFound) (line :: rest) outbox
      = (Heard.conclusion missing (some (Heard.ofLine line)), ⟨rest, outbox⟩) := by
  rw [listen_cons]
  cases hline : Heard.ofLine line with
  | blank => rw [hline] at h; cases h
  | asks query => rw [hline] at h; cases h
  | failure text => rfl
  | success result => rfl
  | unreadable cause => rfl

/-- Lines after which the filter goes on are answered before it does so. What comes after them has
no part in it. -/
theorem listen_append (hfirst : ∀ line ∈ first, (Heard.ofLine line).goesOn)
    (htakes : outbox.Takes (replies store first)) (rest : List Bytes) :
    listen store (missing.map .itemNotFound) (first ++ rest) outbox
      = listen store ((missing.or (Query.firstMissing store (queries first))).map .itemNotFound)
          rest (outbox.after (replies store first)) := by
  -- what has been sent and the first missing item go through the lines, so both are general
  induction first generalizing missing outbox with
  | nil =>
    have hnone : Query.firstMissing store (queries []) = none := rfl
    have hnil : replies store [] = [] := rfl
    rw [List.nil_append, hnone, Option.or_none, hnil, Outbox.after_nil]
  | cons line first ih =>
    obtain ⟨hline, hfirst⟩ := List.forall_mem_cons.mp hfirst
    rw [List.cons_append, listen_cons]
    rcases Heard.eq_of_goesOn hline with heard | ⟨query, heard⟩
    · have hqueries : queries (line :: first) = queries first := by
        rw [queries_cons, queries_blank heard, List.nil_append]
      have hreplies : replies store (line :: first) = replies store first := by
        rw [replies, hqueries, replies]
      rw [hreplies] at htakes
      rw [heard, hqueries, hreplies]
      exact ih hfirst htakes
    · have hqueries : queries (line :: first) = [query] ++ queries first := by
        rw [queries_cons, queries_asks heard]
      have hreplies : replies store (line :: first)
          = [(query.answer store).text] ++ replies store first := by
        rw [replies, hqueries, List.map_append, replies]
        rfl
      rw [hreplies, Outbox.takes_append] at htakes
      rw [heard, hqueries, hreplies, Query.firstMissing_append, ← Option.or_assoc,
        ← Outbox.after_after]
      dsimp only
      rw [Outbox.send_of_takes htakes.1]
      exact ih hfirst htakes.2

end Runs

/-! ## How listening ends -/

/-- The ways in which listening ends: with these lines read, those left, and this result. The engine
has closed its output, or it has said something after which the filter does not go on, or an answer
did not get through. -/
inductive Ends (store : Store) (missing : Option String) :
    List Bytes → List Bytes → Except Error Json → Prop
  | closed {read : List Bytes} : (∀ line ∈ read, (Heard.ofLine line).goesOn) →
      Ends store missing read [] (.error .engineClosed)
  | concluded {first rest : List Bytes} {last : Bytes} :
      (∀ line ∈ first, (Heard.ofLine line).goesOn) → (Heard.ofLine last).goesOn = false →
      Ends store missing (first ++ [last]) rest
        (Heard.conclusion (missing.or (Query.firstMissing store (queries first)))
          (some (Heard.ofLine last)))
  | broken {first rest : List Bytes} {last : Bytes} {query : Query} {cause : StreamError} :
      (∀ line ∈ first, (Heard.ofLine line).goesOn) → Heard.ofLine last = .asks query →
      Ends store missing (first ++ [last]) rest (.error (.engineIo cause))

theorem Ends.cons {store : Store} {missing : Option String} {line : Bytes} {read rest : List Bytes}
    {result : Except Error Json} (hline : (Heard.ofLine line).goesOn)
    (h : Ends store (missing.or (Query.firstMissing store (queries [line]))) read rest result) :
    Ends store missing (line :: read) rest result := by
  cases h with
  | closed hread => exact .closed (List.forall_mem_cons.mpr ⟨hline, hread⟩)
  | concluded hfirst hlast =>
    rename_i first last
    rw [Option.or_assoc, ← Query.firstMissing_append, ← queries_cons]
    exact .concluded (List.forall_mem_cons.mpr ⟨hline, hfirst⟩) hlast
  | broken hfirst hlast => exact .broken (List.forall_mem_cons.mpr ⟨hline, hfirst⟩) hlast

theorem exists_ends (store : Store) (missing : Option String) (lines : List Bytes)
    (outbox : Outbox) :
    ∃ read rest result outbox',
      listen store (missing.map .itemNotFound) lines outbox = (result, ⟨rest, outbox'⟩) ∧
      lines = read ++ rest ∧ Ends store missing read rest result := by
  induction lines generalizing missing outbox with
  | nil => exact ⟨[], [], _, outbox, rfl, rfl, .closed (List.forall_mem_nil _)⟩
  | cons line rest ih =>
    by_cases hline : (Heard.ofLine line).goesOn
    · rw [listen_cons]
      rcases Heard.eq_of_goesOn hline with heard | ⟨query, heard⟩
      · obtain ⟨read, left, result, outbox', hlisten, rfl, hends⟩ := ih missing outbox
        have hnone : Query.firstMissing store (queries [line]) = none := by
          rw [queries_blank heard]
          rfl
        rw [heard]
        refine ⟨line :: read, left, result, outbox', hlisten, rfl, .cons hline ?_⟩
        rw [hnone, Option.or_none]
        exact hends
      · rw [heard]
        dsimp only
        -- an answer that does not get through is the end, otherwise the rest of the lines is read
        rcases outbox.send (query.answer store) with ⟨cause | _, outbox₁⟩
        · exact ⟨[line], rest, _, outbox₁, rfl, rfl,
            @Ends.broken _ _ [] _ _ _ _ (List.forall_mem_nil _) heard⟩
        · obtain ⟨read, left, result, outbox', hlisten, rfl, hends⟩ :=
            ih (missing.or (Query.firstMissing store [query])) outbox₁
          refine ⟨line :: read, left, result, outbox', hlisten, rfl, .cons hline ?_⟩
          rw [queries_asks heard]
          exact hends
    · have hlast : (Heard.ofLine line).goesOn = false := Bool.eq_false_iff.mpr hline
      have hends := @Ends.concluded store missing [] rest line (List.forall_mem_nil _) hlast
      have hnone : Query.firstMissing store (queries []) = none := rfl
      rw [hnone, Option.or_none] at hends
      exact ⟨[line], rest, _, outbox, listen_of_not_goesOn hlast, rfl, hends⟩

end Conversation

end CitationFilter
