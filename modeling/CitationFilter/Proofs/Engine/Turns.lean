import CitationFilter.Proofs.Engine.Heard
import CitationFilter.Proofs.Engine.RequestLines
import CitationFilter.Proofs.Json.Line

/-!
# Requests in turn

A turn is one request with what the engine said to it: some lines after which the filter goes on,
and the line that was the end. Cut in this way, what the engine says falls into one piece for each
request, and what is sent falls into one piece for each of them too, the request with the answers to
the queries in its piece. So the two sides never get out of step, however many callbacks there are
and whatever becomes of a request.

The answers are sent as the filter goes along. This shows in how a request goes on behind any lines
that it has read: the answers to these lines have been sent by then, before the next one is looked
at.
-/

namespace CitationFilter

/-- One request with what the engine said to it. -/
structure Turn where
  /-- What was asked. -/
  request : Request
  /-- The lines after which the filter went on. -/
  first : List Bytes
  /-- The line that was the end, unless the engine closed its output. -/
  last : Option Bytes
  goesOn_of_mem_first : ∀ line ∈ first, (Heard.ofLine line).goesOn
  goesOn_last : ∀ line ∈ last, (Heard.ofLine line).goesOn = false

namespace Turn

/-- Whether the filter goes on after a line. -/
def goesOn (line : Bytes) : Bool := (Heard.ofLine line).goesOn

/-- The turn in which a request is made and these lines have not been read. -/
def of (request : Request) (unread : List Bytes) : Turn where
  request := request
  first := unread.takeWhile goesOn
  last := (unread.dropWhile goesOn).head?
  goesOn_of_mem_first := List.all_eq_true.mp List.all_takeWhile
  goesOn_last line hline := by
    have hnot := List.head?_dropWhile_not goesOn unread
    rw [Option.mem_def.mp hline] at hnot
    exact hnot

/-- The lines that were read. -/
def read (turn : Turn) : List Bytes := turn.first ++ turn.last.toList

/-- The lines that were sent: the request and the answers to the queries. -/
def sent (store : Store) (turn : Turn) : List String :=
  turn.request.line :: Conversation.replies store turn.first

/-- What the request came to. -/
def result (store : Store) (turn : Turn) : Except Error Json :=
  Heard.conclusion (Query.firstMissing store (Conversation.queries turn.first))
    (turn.last.map Heard.ofLine)

/-- The turns in which some requests are made one after the other. -/
def sequence : List Request → List Bytes → List Turn
  | [], _ => []
  | request :: requests, unread =>
    let turn := of request unread
    turn :: sequence requests (unread.drop turn.read.length)

theorem read_of_append (request : Request) (unread : List Bytes) :
    (of request unread).read ++ (unread.dropWhile goesOn).tail = unread := by
  have hlast : (unread.dropWhile goesOn).head?.toList ++ (unread.dropWhile goesOn).tail
      = unread.dropWhile goesOn := by
    cases unread.dropWhile goesOn <;> rfl
  rw [read, of, List.append_assoc, hlast, List.takeWhile_append_dropWhile]

theorem drop_length_read_of (request : Request) (unread : List Bytes) :
    unread.drop (of request unread).read.length = (unread.dropWhile goesOn).tail := by
  have h := congrArg (List.drop (of request unread).read.length) (read_of_append request unread)
  rw [List.drop_left] at h
  exact h.symm

theorem drop_length_read_of_eq_nil {request : Request} {unread : List Bytes}
    (h : (of request unread).last = none) : unread.drop (of request unread).read.length = [] := by
  rw [drop_length_read_of, List.head?_eq_none_iff.mp h, List.tail_nil]

/-- The first line after which the filter does not go on ends the turn. -/
theorem sequence_append_cons {first : List Bytes} {last : Bytes}
    (hfirst : ∀ line ∈ first, (Heard.ofLine line).goesOn)
    (hlast : ∀ line ∈ some last, (Heard.ofLine line).goesOn = false) (request : Request)
    (requests : List Request) (rest : List Bytes) :
    sequence (request :: requests) (first ++ last :: rest)
      = ⟨request, first, some last, hfirst, hlast⟩ :: sequence requests rest := by
  have hgoesOn : ∀ line ∈ first, goesOn line := hfirst
  have hnot : ¬goesOn last := Bool.eq_false_iff.mp (hlast last rfl)
  have htake : (first ++ last :: rest).takeWhile goesOn = first := by
    rw [List.takeWhile_append_of_pos hgoesOn, List.takeWhile_cons_of_neg hnot, List.append_nil]
  have hdrop : (first ++ last :: rest).dropWhile goesOn = last :: rest := by
    rw [List.dropWhile_append_of_pos hgoesOn, List.dropWhile_cons_of_neg hnot]
  have hof : of request (first ++ last :: rest) = ⟨request, first, some last, hfirst, hlast⟩ := by
    simp only [of, htake, hdrop, List.head?_cons]
  rw [sequence, drop_length_read_of, hof, hdrop, List.tail_cons]

theorem map_request_sequence (requests : List Request) (unread : List Bytes) :
    (sequence requests unread).map request = requests := by
  induction requests generalizing unread with
  | nil => rfl
  | cons request requests ih =>
    rw [sequence, List.map_cons, ih]
    rfl

theorem newline_not_mem_of_mem_sent {store : Store} {turn : Turn} {line : String}
    (h : line ∈ turn.sent store) : '\n' ∉ line.toList := by
  rcases List.mem_cons.mp h with rfl | h
  · exact Json.newline_not_mem_text _
  · obtain ⟨query, -, rfl⟩ := List.mem_map.mp h
    exact Json.newline_not_mem_text _

end Turn

namespace Conversation

/-! ## One request -/

section Call

variable {store : Store} {request : Request} {outbox : Outbox}

/-- How a request goes on behind lines that it has read: what they ask for has been answered. -/
theorem runFrom_call_append {first : List Bytes}
    (hfirst : ∀ line ∈ first, (Heard.ofLine line).goesOn)
    (htakes : outbox.Takes (request.line :: replies store first)) (rest : List Bytes) :
    Step.runFrom (call store request) ⟨first ++ rest, outbox⟩
      = listen store ((Query.firstMissing store (queries first)).map .itemNotFound) rest
          (outbox.after (request.line :: replies store first)) := by
  have hlines : request.line :: replies store first = [request.line] ++ replies store first := rfl
  rw [hlines, Outbox.takes_append] at htakes
  have hsend : outbox.send request.toJson = (.ok (), outbox.after [request.line]) :=
    Outbox.send_of_takes htakes.1
  have hlisten := @listen_append _ none _ _ hfirst htakes.2 rest
  rw [Option.none_or, Outbox.after_after, ← hlines] at hlisten
  rw [call, Step.runFrom_mk, hsend]
  exact hlisten

/-- What one request does, in terms of the turn that it makes. -/
theorem runFrom_call {unread : List Bytes}
    (h : outbox.Takes ((Turn.of request unread).sent store)) :
    Step.runFrom (call store request) ⟨unread, outbox⟩
      = ((Turn.of request unread).result store,
          ⟨unread.drop (Turn.of request unread).read.length,
            outbox.after ((Turn.of request unread).sent store)⟩) := by
  have hrun := runFrom_call_append (Turn.of request unread).goesOn_of_mem_first h
    (unread.dropWhile Turn.goesOn)
  have hunread : (Turn.of request unread).first ++ unread.dropWhile Turn.goesOn = unread :=
    List.takeWhile_append_dropWhile
  have hlast : (Turn.of request unread).last = (unread.dropWhile Turn.goesOn).head? := rfl
  rw [hunread] at hrun
  -- behind the first lines there is either nothing or a line that is the end
  rw [Turn.drop_length_read_of, Turn.result]
  refine hrun.trans ?_
  cases hrest : unread.dropWhile Turn.goesOn with
  | nil =>
    rw [hlast, hrest]
    rfl
  | cons last rest =>
    rw [hrest, List.head?_cons] at hlast
    rw [hlast]
    exact listen_of_not_goesOn ((Turn.of request unread).goesOn_last last hlast)

end Call

/-! ## Many requests -/

/-- Makes requests one after the other, whatever becomes of each of them. -/
def converse (store : Store) (requests : List Request) :
    StateM Conversation (List (Except Error Json)) :=
  requests.mapM fun request ↦ (call store request).run

theorem run_converse_cons (store : Store) (request : Request) (requests : List Request)
    (s : Conversation) :
    (converse store (request :: requests)).run s =
      let (result, s₁) := Step.runFrom (call store request) s
      let (results, s') := (converse store requests).run s₁
      (result :: results, s') := by
  rw [converse, List.mapM_cons]
  rfl

theorem run_converse {store : Store} {requests : List Request} {unread : List Bytes}
    {outbox : Outbox}
    (h : outbox.Takes ((Turn.sequence requests unread).flatMap (Turn.sent store))) :
    ∃ left,
      (converse store requests).run ⟨unread, outbox⟩
        = ((Turn.sequence requests unread).map (Turn.result store),
            ⟨left, outbox.after
              ((Turn.sequence requests unread).flatMap (Turn.sent store))⟩) ∧
      unread = (Turn.sequence requests unread).flatMap Turn.read ++ left ∧
      ∀ turn ∈ Turn.sequence requests unread, turn.last = none → left = [] := by
  induction requests generalizing unread outbox with
  | nil =>
    refine ⟨unread, ?_, rfl, fun _ hmem ↦ absurd hmem List.not_mem_nil⟩
    rw [Turn.sequence, List.flatMap_nil, Outbox.after_nil]
    rfl
  | cons request requests ih =>
    rw [Turn.sequence] at h ⊢
    rw [List.flatMap_cons, Outbox.takes_append] at h
    obtain ⟨left, hrun, hread, hclosed⟩ := ih h.2
    refine ⟨left, ?_, ?_, ?_⟩
    · rw [run_converse_cons, runFrom_call h.1]
      dsimp only
      rw [hrun]
      dsimp only
      rw [Outbox.after_after, List.flatMap_cons, List.map_cons]
    · rw [List.flatMap_cons, List.append_assoc, ← hread, Turn.drop_length_read_of,
        Turn.read_of_append]
    · intro turn hmem hnone
      rcases List.mem_cons.mp hmem with rfl | hmem
      · have hnil := Turn.drop_length_read_of_eq_nil hnone
        rw [hnil] at hread
        exact (List.append_eq_nil_iff.mp hread.symm).2
      · exact hclosed turn hmem hnone

/-- **Requests in turn.** If there is room for what is to be sent, requests that are made one after
the other come to what their turns say. Every line of the engine is read in one of them, in order,
or left, and none is left if the engine closes its output. What is sent is each request with the
answers to its queries, one line for each. An answer is sent before the next line of the engine
matters. -/
theorem requests_in_turn (store : Store) (requests : List Request) (s : Conversation)
    (h : s.outbox.Takes ((Turn.sequence requests s.unread).flatMap (Turn.sent store))) :
    let turns := Turn.sequence requests s.unread
    ∃ s' : Conversation,
      (converse store requests).run s = (turns.map (Turn.result store), s') ∧
      turns.map Turn.request = requests ∧
      s.unread = turns.flatMap Turn.read ++ s'.unread ∧
      (∀ turn ∈ turns, turn.last = none → s'.unread = []) ∧
      s'.outbox = s.outbox.after (turns.flatMap (Turn.sent store)) ∧
      (∀ turn ∈ turns, ∀ line ∈ turn.sent store, '\n' ∉ line.toList) ∧
      ∀ (request : Request) (first rest : List Bytes) (outbox : Outbox),
        (∀ line ∈ first, (Heard.ofLine line).goesOn) →
        outbox.Takes (request.line :: replies store first) →
        Step.runFrom (call store request) ⟨first ++ rest, outbox⟩
          = listen store ((Query.firstMissing store (queries first)).map .itemNotFound) rest
              (outbox.after (request.line :: replies store first)) := by
  intro turns
  obtain ⟨left, hrun, hread, hclosed⟩ := run_converse h
  refine ⟨_, hrun, Turn.map_request_sequence requests s.unread, hread, hclosed, rfl, ?_, ?_⟩
  · intro turn _ line hline
    exact Turn.newline_not_mem_of_mem_sent hline
  · intro request first rest outbox hfirst htakes
    exact runFrom_call_append hfirst htakes rest

/-- Two requests. While it works on the first one, the engine asks for an item that is there and for
one that is not. What it says behind the two results is left. -/
theorem requests_in_turn_sample :
    let store : Store := ⟨[⟨"a", [("type", .str "book")]⟩], []⟩
    let line (message : Json) : Bytes := Bytes.ofText (message.text ++ "\n")
    let query (id : String) : Bytes :=
      line (.obj [("callback", .str "retrieveItem"), ("params", .str id)])
    let outcome (result : Json) : Bytes := line (.obj [("result", result)])
    ∃ s' : Conversation,
      (converse store [.setOutputFormat "html", .makeBibliography]).run
        ⟨[Bytes.ofText "\n", query "a", query "ghost", outcome (.bool true), outcome (.bool false),
          query "b"], ⟨[], none⟩⟩
        = ([.error (.itemNotFound "ghost"), .ok (.bool false)], s') ∧
      s'.unread = [query "b"] ∧
      s'.outbox.sent =
        [ Json.obj [("method", .str "setOutputFormat"), ("params", .str "html")],
          .obj [("result", .obj [("id", .str "a"), ("type", .str "book")])],
          .obj [("error", .str "item with ID \"ghost\" not found in the bibliography")],
          .obj [("method", .str "makeBibliography"), ("params", .null)] ].map Json.text := by
  intro store line query outcome
  have hblank : Heard.ofLine (Bytes.ofText "\n") = .blank := by
    rw [Heard.ofLine, Bytes.toText?_ofText]
    rfl
  have hfound : Heard.ofLine (query "a") = .asks ⟨.item, "a"⟩ :=
    @Heard.ofLine_ofText _ (.callback .item "a") rfl rfl
  have hmissing : Heard.ofLine (query "ghost") = .asks ⟨.item, "ghost"⟩ :=
    @Heard.ofLine_ofText _ (.callback .item "ghost") rfl rfl
  have htrue : Heard.ofLine (outcome (.bool true)) = .success (.bool true) :=
    @Heard.ofLine_ofText _ (.success (.bool true)) rfl rfl
  have hfalse : Heard.ofLine (outcome (.bool false)) = .success (.bool false) :=
    @Heard.ofLine_ofText _ (.success (.bool false)) rfl rfl
  have hqueries : queries [Bytes.ofText "\n", query "a", query "ghost"]
      = [⟨.item, "a"⟩, ⟨.item, "ghost"⟩] := by
    simp [queries, hblank, hfound, hmissing, Heard.query?]
  -- the turn of each request, as far as the line that ends it
  have hsecond := @Turn.sequence_append_cons [] (outcome (.bool false)) (List.forall_mem_nil _)
    (by simp [hfalse, Heard.goesOn]) .makeBibliography [] [query "b"]
  have hsequence := @Turn.sequence_append_cons
    [Bytes.ofText "\n", query "a", query "ghost"] (outcome (.bool true))
    (by simp [hblank, hfound, hmissing, Heard.goesOn]) (by simp [htrue, Heard.goesOn])
    (.setOutputFormat "html") [.makeBibliography] [outcome (.bool false), query "b"]
  rw [List.nil_append] at hsecond
  rw [hsecond, Turn.sequence] at hsequence
  obtain ⟨s', hrun, -, hread, -, houtbox, -⟩ :=
    requests_in_turn store [.setOutputFormat "html", .makeBibliography] ⟨_, ⟨[], none⟩⟩
      (Outbox.takes_of_room_eq_none rfl _)
  rw [hsequence] at hrun hread houtbox
  refine ⟨s', hrun.trans ?_, ?_, ?_⟩
  · simp only [List.map_cons, Turn.result, hqueries, Option.map_some, htrue, hfalse]
    rfl
  · simpa [Turn.read] using hread.symm
  · rw [houtbox]
    simp only [List.flatMap_cons, Turn.sent, replies, hqueries]
    rfl

end Conversation

end CitationFilter
