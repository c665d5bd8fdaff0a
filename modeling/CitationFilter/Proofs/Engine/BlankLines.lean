import CitationFilter.Proofs.Citation.Engines
import CitationFilter.Proofs.Engine.Turns
import CitationFilter.Proofs.Text.Lines

/-!
# Blank lines do not count

An engine may say blank lines wherever a line can begin. `Bytes.Spaced` relates a stream to the
same stream with blank lines put in, and the statement is about two conversations of which one hears
the first stream and one the second: whatever they are asked, they come to the same and have been
sent the same, and what is left to read is again related in this way.

The reason is that a line of the engine has one of two effects, whatever comes after it
(`Conversation.listen_cons_cases`): the filter goes on with the next line, or the request is over.
So the two conversations go through the lines that they share in step, and a blank line is a step
of only one of them that changes nothing.
-/

namespace CitationFilter

namespace Bytes

/-- A complete line with nothing but white space in it. -/
def IsBlankLine (line : Bytes) : Prop :=
  ∃ blanks : String, Text.allBlank blanks ∧ '\n' ∉ blanks.toList ∧ line = ofText (blanks ++ "\n")

/-- The second stream is the first one with blank lines put in wherever a line begins, or would
begin: in front of it and behind every line feed. What is behind the last line feed stays last. -/
inductive Spaced : Bytes → Bytes → Prop
  | last {rest : Bytes} : lineFeed ∉ rest → Spaced rest rest
  | blank {line stream spaced : Bytes} : IsBlankLine line → Spaced stream spaced →
      Spaced stream (line ++ spaced)
  | line {body stream spaced : Bytes} : lineFeed ∉ body → Spaced stream spaced →
      Spaced (body ++ lineFeed :: stream) (body ++ lineFeed :: spaced)

theorem IsBlankLine.lines_append {line : Bytes} (h : IsBlankLine line) (rest : Bytes) :
    lines (line ++ rest) = line :: lines rest := by
  obtain ⟨blanks, -, hfeed, rfl⟩ := h
  exact lines_ofText_append hfeed rest

theorem IsBlankLine.ofLine_eq {line : Bytes} (h : IsBlankLine line) :
    Heard.ofLine line = .blank := by
  obtain ⟨blanks, hblank, -, rfl⟩ := h
  have hall : Text.allBlank (blanks ++ "\n") := by
    rw [Text.allBlank] at hblank ⊢
    rw [String.toList_append, List.all_append, hblank]
    rfl
  rw [Heard.ofLine, toText?_ofText]
  dsimp only
  rw [if_pos hall]

end Bytes

namespace Conversation

/-! ## One line, whatever comes after it -/

/-- After a line the filter goes on, or the request is over. What comes after the line has no part
in this. -/
theorem listen_cons_cases (store : Store) (missing : Option String) (line : Bytes)
    (outbox : Outbox) :
    (∃ (missing' : Option String) (outbox' : Outbox), ∀ rest,
      listen store (missing.map .itemNotFound) (line :: rest) outbox
        = listen store (missing'.map .itemNotFound) rest outbox') ∨
    (∃ (result : Except Error Json) (outbox' : Outbox), ∀ rest,
      listen store (missing.map .itemNotFound) (line :: rest) outbox
        = (result, ⟨rest, outbox'⟩)) := by
  simp only [listen_cons]
  cases Heard.ofLine line with
  | blank => exact Or.inl ⟨missing, outbox, fun rest ↦ rfl⟩
  | asks query =>
    dsimp only
    rcases outbox.send (query.answer store) with ⟨cause | _, outbox'⟩
    · exact Or.inr ⟨_, outbox', fun rest ↦ rfl⟩
    · exact Or.inl ⟨_, outbox', fun rest ↦ rfl⟩
  | failure text => exact Or.inr ⟨_, outbox, fun rest ↦ rfl⟩
  | success result => exact Or.inr ⟨_, outbox, fun rest ↦ rfl⟩
  | unreadable cause => exact Or.inr ⟨_, outbox, fun rest ↦ rfl⟩

/-! ## Two conversations -/

/-- The second conversation is the first one but for blank lines that nobody has read yet. -/
def SpacedOut (s t : Conversation) : Prop :=
  ∃ stream spaced, Bytes.Spaced stream spaced ∧ s.unread = stream.lines ∧
    t.unread = spaced.lines ∧ s.outbox = t.outbox

theorem SpacedOut.start {script spaced : Bytes} (h : script.Spaced spaced) (room : Option Nat) :
    SpacedOut (.start script room) (.start spaced room) :=
  ⟨script, spaced, h, rfl, rfl, rfl⟩

/-- Behind the last line feed there is at most one line, so nothing is left after it. -/
theorem unread_listen_of_lineFeed_not_mem (store : Store) (missing : Option String) {rest : Bytes}
    (h : Bytes.lineFeed ∉ rest) (outbox : Outbox) :
    (listen store (missing.map .itemNotFound) rest.lines outbox).2.unread = [] := by
  by_cases hnil : rest = []
  · rw [hnil]
    rfl
  · rw [Bytes.lines_of_lineFeed_not_mem h hnil]
    rcases listen_cons_cases store missing rest outbox with
      ⟨missing', outbox', hgoesOn⟩ | ⟨result, outbox', hends⟩
    · rw [hgoesOn]
      rfl
    · rw [hends]

theorem listen_spaced (store : Store) (missing : Option String) {stream spaced : Bytes}
    (h : stream.Spaced spaced) (outbox : Outbox) :
    (listen store (missing.map .itemNotFound) stream.lines outbox).1
        = (listen store (missing.map .itemNotFound) spaced.lines outbox).1 ∧
      SpacedOut (listen store (missing.map .itemNotFound) stream.lines outbox).2
        (listen store (missing.map .itemNotFound) spaced.lines outbox).2 := by
  induction h generalizing missing outbox with
  | @last rest hrest =>
    have hunread := unread_listen_of_lineFeed_not_mem store missing hrest outbox
    exact ⟨rfl, [], [], .last List.not_mem_nil, hunread, hunread, rfl⟩
  | blank hline _ ih =>
    rw [hline.lines_append, listen_cons, hline.ofLine_eq]
    exact ih missing outbox
  | @line body stream spaced hbody hrest ih =>
    rw [Bytes.lines_append_lineFeed hbody, Bytes.lines_append_lineFeed hbody]
    rcases listen_cons_cases store missing (body ++ [Bytes.lineFeed]) outbox with
      ⟨missing', outbox', hgoesOn⟩ | ⟨result, outbox', hends⟩
    · rw [hgoesOn, hgoesOn]
      exact ih missing' outbox'
    · rw [hends, hends]
      exact ⟨rfl, stream, spaced, hrest, rfl, rfl, rfl⟩

theorem call_alike (store : Store) (request : Request) :
    Step.Alike SpacedOut (call store request) (call store request) := by
  rintro s t ⟨stream, spaced, hspaced, hs, ht, houtbox⟩
  rw [call, Step.runFrom_mk, Step.runFrom_mk, hs, ht, houtbox]
  rcases t.outbox.send request.toJson with ⟨cause | _, outbox⟩
  · exact ⟨rfl, stream, spaced, hspaced, rfl, rfl, rfl⟩
  · exact listen_spaced store none hspaced outbox

theorem engine_alike (store : Store) :
    Engine.Related (Step.Alike SpacedOut) (engine store) (engine store) :=
  engine_related (Step.alike_congruence (fun _ ↦ True) SpacedOut) (fun _ ↦ trivial)
    (call_alike store)

theorem converse_spaced (store : Store) (requests : List Request) {s t : Conversation}
    (h : SpacedOut s t) :
    ((converse store requests).run s).1 = ((converse store requests).run t).1 ∧
      SpacedOut ((converse store requests).run s).2 ((converse store requests).run t).2 := by
  induction requests generalizing s t with
  | nil => exact ⟨rfl, h⟩
  | cons request requests ih =>
    obtain ⟨hresult, hstate⟩ := call_alike store request h
    obtain ⟨hresults, hstates⟩ := ih hstate
    rw [run_converse_cons, run_converse_cons]
    exact ⟨congrArg₂ List.cons hresult hresults, hstates⟩

/-- Two runs end alike but for blank lines that nobody has read: with the same result, and with the
same lines sent. -/
structure EndAlike {α : Type} (run run' : α × Conversation) : Prop where
  result : run'.1 = run.1
  sent : run'.2.outbox.sent = run.2.outbox.sent
  unread : Bytes.Spaced run.2.unread.flatten run'.2.unread.flatten

theorem SpacedOut.endAlike {α : Type} {run run' : α × Conversation}
    (hstate : SpacedOut run.2 run'.2) (hresult : run.1 = run'.1) : EndAlike run run' := by
  obtain ⟨stream, spaced, hspaced, hs, ht, houtbox⟩ := hstate
  refine ⟨hresult.symm, congrArg Outbox.sent houtbox.symm, ?_⟩
  rwa [hs, ht, Bytes.flatten_lines, Bytes.flatten_lines]

/-- **Blank lines do not count.** If blank lines are put into what the engine says, a series of
requests comes to the same, the same is sent for it, and the same is left unread but for blank
lines. So it is with a resolution, which decides on its requests as it goes along. -/
theorem blank_lines_do_not_count (served store : Store) (requests : List Request) (format : String)
    (document : Document) {script spaced : Bytes} (h : script.Spaced spaced) (room : Option Nat) :
    EndAlike ((converse served requests).run (.start script room))
        ((converse served requests).run (.start spaced room)) ∧
      EndAlike
        (Step.runFrom (Resolution.resolve (engine served) store format document)
          (.start script room))
        (Step.runFrom (Resolution.resolve (engine served) store format document)
          (.start spaced room)) := by
  have hstart := SpacedOut.start h room
  constructor
  · obtain ⟨hresults, hstate⟩ := converse_spaced served requests hstart
    exact hstate.endAlike hresults
  · obtain ⟨hresult, hstate⟩ := Resolution.resolve_related
      (Step.alike_congruence _ SpacedOut) (engine_alike served) store format document hstart
    exact hstate.endAlike hresult

/-- Blank lines in front of a result and behind it: the request comes to the result. -/
theorem blank_lines_do_not_count_sample :
    let script : Bytes := Bytes.ofText "\x7b\"result\":false\x7d\n"
    let spaced := Bytes.ofText "\u3000\t\n" ++ (script ++ Bytes.ofText "\u2028\n")
    script.Spaced spaced ∧
      ((converse ⟨[], []⟩ [.makeBibliography]).run (.start spaced none)).1
        = [.ok (.bool false)] := by
  intro script spaced
  have hfeed : script = Bytes.ofText "\x7b\"result\":false\x7d" ++ Bytes.lineFeed :: [] := by
    decide +kernel
  have hspaced : script.Spaced spaced := by
    refine .blank ⟨"\u3000\t", by decide, by decide, rfl⟩ ?_
    rw [hfeed, List.append_assoc, List.cons_append, List.nil_append]
    refine .line (Bytes.lineFeed_not_mem_ofText (by decide)) ?_
    rw [← List.append_nil (Bytes.ofText "\u2028\n")]
    exact .blank ⟨"\u2028", by decide, by decide, rfl⟩ (.last List.not_mem_nil)
  have hlines : script.lines = [script] := by
    have hline := Bytes.lines_ofText_append (s := "\x7b\"result\":false\x7d") (by decide) []
    rwa [List.append_nil] at hline
  have heard : Heard.ofLine script = .success (.bool false) :=
    @Heard.ofLine_ofText _ (.success (.bool false)) rfl rfl
  have hrun : ((converse ⟨[], []⟩ [.makeBibliography]).run (.start script none)).1
      = [.ok (.bool false)] := by
    have hend := @listen_of_not_goesOn ⟨[], []⟩ none [] script
      ⟨[Request.makeBibliography.line], none⟩ (by rw [heard]; rfl)
    rw [heard] at hend
    rw [run_converse_cons, start, hlines]
    exact congrArg (fun run ↦ [run.1]) hend
  have halike := blank_lines_do_not_count ⟨[], []⟩ ⟨[], []⟩ [.makeBibliography] "" ⟨⟨[]⟩, [], []⟩
    hspaced none
  exact ⟨hspaced, halike.1.result.trans hrun⟩

end Conversation

end CitationFilter
