import CitationFilter.Proofs.Citation.Engines
import CitationFilter.Proofs.Engine.Heard

/-!
# An engine that stops taking lines

An engine's input may take only so many bytes in all. A resolution over such an input goes the same
way as over one without a limit, up to the first line that does not fit. That line may be a request
or the answer to a callback, and either way it is the end. So the lines that were sent are the
longest first part of the others that fits (`Outbox.Longest`), and nothing before the limit depends
on it.

Lines are only ever added to those that were sent. This is why a step that comes after the line that
did not fit cannot repair the comparison, and the two facts are therefore carried through the steps
of a resolution together (`Conversation.Limits`).
-/

namespace CitationFilter

/-! ## The longest first part that fits -/

namespace Outbox

/-- Of all first parts of the lines that take no more than so many bytes, this is the longest. -/
structure Longest (limit : Nat) (part lines : List String) : Prop where
  part_of : part <+: lines
  fits : size part ≤ limit
  longest : ∀ other, other <+: lines → size other ≤ limit → other <+: part

theorem size_le_of_prefix {part lines : List String} (h : part <+: lines) :
    size part ≤ size lines := by
  obtain ⟨rest, rfl⟩ := h
  rw [size_append]
  exact Nat.le_add_right _ _

variable {limit : Nat} {part lines more : List String}

theorem Longest.refl (h : size lines ≤ limit) : Longest limit lines lines :=
  ⟨List.prefix_refl _, h, fun _ hother _ ↦ hother⟩

/-- Lines behind those that do not all fit make no difference. -/
theorem Longest.trans (h : Longest limit part lines) (hlimit : limit < size lines)
    (hmore : lines <+: more) : Longest limit part more := by
  refine ⟨h.part_of.trans hmore, h.fits, ?_⟩
  intro other hother hsize
  rcases List.prefix_or_prefix_of_prefix hother hmore with hle | hle
  · exact h.longest other hle hsize
  · have := size_le_of_prefix hle
    omega

theorem Longest.of_line {line : String} (h : size part ≤ limit)
    (hlimit : limit < size (part ++ [line])) : Longest limit part (part ++ [line]) := by
  refine ⟨List.prefix_append _ _, h, ?_⟩
  intro other hother hsize
  rcases List.prefix_concat_iff.mp hother with rfl | hother
  · omega
  · exact hother

/-- The outbox with the same lines sent, over an input that takes so many bytes in all. -/
def limited (limit : Nat) (outbox : Outbox) : Outbox :=
  ⟨outbox.sent, some (limit - size outbox.sent)⟩

/-- A line that fits is sent as it is without a limit, and one that does not fit is the end. -/
theorem send_limited {outbox : Outbox} (h : size outbox.sent ≤ limit) (message : Json) :
    (outbox.limited limit).send message =
      if size (outbox.sent ++ [message.text]) ≤ limit then
        (.ok (), limited limit ⟨outbox.sent ++ [message.text], none⟩)
      else (.error .inputBroken, ⟨outbox.sent, some 0⟩) := by
  obtain ⟨sent, room⟩ := outbox
  have hsize : size (sent ++ [message.text]) = size sent + (message.text.utf8ByteSize + 1) := by
    rw [size_append]
    rfl
  rw [limited, limited, send, sendLine]
  dsimp only
  rw [hsize]
  by_cases hfits : size sent + (message.text.utf8ByteSize + 1) ≤ limit
  · rw [if_pos hfits, if_pos (by omega), Nat.sub_sub]
  · rw [if_neg hfits, if_neg (by omega)]

end Outbox

namespace Conversation

open Outbox (size)

/-! ## Runs that are cut short -/

/-- The first run is over an input that takes so many bytes in all, the second one over an input
without a limit. -/
structure CutShort {α : Type} (limit : Nat) (cut free : Except Error α × Conversation) : Prop where
  /-- What is sent over the first one is as much of the rest as it takes. -/
  sent : Outbox.Longest limit cut.2.outbox.sent free.2.outbox.sent
  /-- If everything fits, the limit makes no difference. -/
  same : size free.2.outbox.sent ≤ limit → cut.1 = free.1 ∧ cut.2.unread = free.2.unread
  /-- If not, the first run fails. -/
  broken : limit < size free.2.outbox.sent → cut.1 = .error (.engineIo .inputBroken)

/-- The conversation over an input that takes so many bytes in all. -/
def limited (limit : Nat) (s : Conversation) : Conversation := ⟨s.unread, s.outbox.limited limit⟩

/-- The first run is like the second one but for the limit, or a line was too long for it. -/
def LimitedOrBroken {α : Type} (limit : Nat) (cut free : Except Error α × Conversation) : Prop :=
  (size free.2.outbox.sent ≤ limit ∧ cut = (free.1, free.2.limited limit)) ∨
    (limit < size free.2.outbox.sent ∧ cut.1 = .error (.engineIo .inputBroken) ∧
      Outbox.Longest limit cut.2.outbox.sent free.2.outbox.sent)

theorem LimitedOrBroken.cutShort {α : Type} {limit : Nat} {cut free : Except Error α × Conversation}
    (h : LimitedOrBroken limit cut free) : CutShort limit cut free := by
  rcases h with ⟨hfits, rfl⟩ | ⟨hlimit, hbroken, hlongest⟩
  · exact ⟨.refl hfits, fun _ ↦ ⟨rfl, rfl⟩, fun hlimit ↦ absurd hfits (Nat.not_le.mpr hlimit)⟩
  · exact ⟨hlongest, fun hfits ↦ absurd hfits (Nat.not_le.mpr hlimit), fun _ ↦ hbroken⟩

/-- What comes of an outbox: without a limit the second function only adds to what is sent, and with
the limit the first one is cut short where the second one exceeds it. -/
structure Respects {α : Type} (limit : Nat) (cut free : Outbox → Except Error α × Conversation) :
    Prop where
  adds : ∀ outbox, outbox.room = none →
    (free outbox).2.outbox.room = none ∧ outbox.sent <+: (free outbox).2.outbox.sent
  cuts : ∀ outbox, outbox.room = none → size outbox.sent ≤ limit →
    LimitedOrBroken limit (cut (outbox.limited limit)) (free outbox)

namespace Respects

variable {α : Type} {limit : Nat}

theorem of_const (result : Except Error α) (rest : List Bytes) :
    Respects limit (fun outbox ↦ (result, ⟨rest, outbox⟩))
      fun outbox ↦ (result, ⟨rest, outbox⟩) where
  adds _ hroom := ⟨hroom, List.prefix_refl _⟩
  cuts _ _ hfits := Or.inl ⟨hfits, rfl⟩

/-- A message that is sent first either fits, or it is the end of the run with the limit. -/
theorem send {next : Outbox → Except Error α × Conversation} (h : Respects limit next next)
    (message : Json) (rest : List Bytes) :
    let run (outbox : Outbox) : Except Error α × Conversation :=
      match outbox.send message with
      | (.ok (), outbox) => next outbox
      | (.error cause, outbox) => (.error (.engineIo cause), ⟨rest, outbox⟩)
    Respects limit run run := by
  intro run
  have hrun {outbox : Outbox} (hroom : outbox.room = none) :
      run outbox = next ⟨outbox.sent ++ [message.text], none⟩ := by
    obtain ⟨sent, room⟩ := outbox
    cases hroom
    rfl
  constructor
  · intro outbox hroom
    rw [hrun hroom]
    obtain ⟨hnone, hadds⟩ := h.adds ⟨outbox.sent ++ [message.text], none⟩ rfl
    exact ⟨hnone, (List.prefix_append _ _).trans hadds⟩
  · intro outbox hroom hfits
    obtain ⟨-, hadds⟩ := h.adds ⟨outbox.sent ++ [message.text], none⟩ rfl
    rw [hrun hroom]
    dsimp only [run]
    rw [Outbox.send_limited hfits message]
    by_cases hline : size (outbox.sent ++ [message.text]) ≤ limit
    · rw [if_pos hline]
      exact h.cuts _ rfl hline
    · -- the run without the limit has sent this line, and perhaps others behind it
      rw [if_neg hline]
      have hlimit := Nat.not_le.mp hline
      exact Or.inr ⟨Nat.lt_of_lt_of_le hlimit (Outbox.size_le_of_prefix hadds), rfl,
        (Outbox.Longest.of_line hfits hlimit).trans hlimit hadds⟩

end Respects

/-! ## Steps -/

/-- The steps respect the limit, whatever the engine is going to say. -/
def Limits {α : Type} (limit : Nat) (p q : Step Conversation α) : Prop :=
  ∀ unread, Respects limit (fun outbox ↦ Step.runFrom p ⟨unread, outbox⟩)
    fun outbox ↦ Step.runFrom q ⟨unread, outbox⟩

theorem limits_congruence (E : Error → Prop) (limit : Nat) :
    Step.Congruence E fun p q ↦ Limits limit p q where
  lift {α x} _ unread := .of_const x unread
  bind {α β p q f g} hp hf unread := by
    constructor
    · intro outbox hroom
      obtain ⟨hnone, hadds⟩ := (hp unread).adds outbox hroom
      rw [Step.runFrom_bind]
      rcases hq : Step.runFrom q ⟨unread, outbox⟩ with ⟨e | a, t⟩ <;> rw [hq] at hnone hadds
      · exact ⟨hnone, hadds⟩
      · obtain ⟨hnone', hadds'⟩ := (hf a t.unread).adds t.outbox hnone
        exact ⟨hnone', hadds.trans hadds'⟩
    · intro outbox hroom hfits
      obtain ⟨hnone, -⟩ := (hp unread).adds outbox hroom
      have hcuts := (hp unread).cuts outbox hroom hfits
      rw [Step.runFrom_bind, Step.runFrom_bind]
      rcases hq : Step.runFrom q ⟨unread, outbox⟩ with ⟨x, t⟩
      rw [hq] at hnone hcuts
      rcases hcuts with ⟨hfits', hcut⟩ | ⟨hlimit, hbroken, hlongest⟩
      · rw [hcut]
        cases x with
        | error e => exact Or.inl ⟨hfits', rfl⟩
        | ok a => exact (hf a t.unread).cuts t.outbox hnone hfits'
      · -- the run with the limit is over, and what the other one still sends comes too late
        rcases hp : Step.runFrom p ⟨unread, outbox.limited limit⟩ with ⟨y, s⟩
        rw [hp] at hbroken hlongest
        cases hbroken
        cases x with
        | error e => exact Or.inr ⟨hlimit, rfl, hlongest⟩
        | ok a =>
          obtain ⟨-, hadds⟩ := (hf a t.unread).adds t.outbox hnone
          exact Or.inr ⟨Nat.lt_of_lt_of_le hlimit (Outbox.size_le_of_prefix hadds), rfl,
            hlongest.trans hlimit hadds⟩

/-! ## Requests -/

theorem listen_respects (limit : Nat) (store : Store) (missing : Option String)
    (lines : List Bytes) :
    Respects limit (listen store (missing.map .itemNotFound) lines)
      (listen store (missing.map .itemNotFound) lines) := by
  induction lines generalizing missing with
  | nil => exact .of_const _ _
  | cons line rest ih =>
    rw [funext (listen_cons store missing line rest)]
    cases Heard.ofLine line with
    | blank => exact ih missing
    | asks query => exact (ih _).send _ _
    | failure text => exact .of_const _ _
    | success result => exact .of_const _ _
    | unreadable cause => exact .of_const _ _

theorem call_limits (limit : Nat) (store : Store) (request : Request) :
    Limits limit (call store request) (call store request) :=
  fun unread ↦ (listen_respects limit store none unread).send request.toJson unread

theorem engine_limits (limit : Nat) (store : Store) :
    Engine.Related (Limits limit) (engine store) (engine store) :=
  engine_related (limits_congruence (fun _ ↦ True) limit) (fun _ ↦ trivial)
    (call_limits limit store)

end Conversation

/-- **A resolution is cut short where the engine stops taking lines.** Over an input that takes so
many bytes in all, the lines that are sent are the longest first part, of those that are sent over
an input without a limit, that fits. If all of them fit, the two resolutions end in the same way
and leave the same unread. If not, the first one fails because the input is broken. -/
theorem Resolution.cut_short_at_limit (served store : Store) (format : String)
    (document : Document) (script : Bytes) (limit : Nat) :
    Conversation.CutShort limit
      (Step.runFrom (resolve (Conversation.engine served) store format document)
        (.start script (some limit)))
      (Step.runFrom (resolve (Conversation.engine served) store format document)
        (.start script none)) := by
  have hlimits := resolve_related (Conversation.limits_congruence _ limit)
    (Conversation.engine_limits limit served) store format document
  have hcuts := (hlimits script.lines).cuts ⟨[], none⟩ rfl (Nat.zero_le limit)
  exact hcuts.cutShort

end CitationFilter
