import CitationFilter.Engine.Conversation
import Mathlib.Algebra.GroupWithZero.Nat

/-!
# Room for lines

An engine's input may take only so many bytes, and a line takes those of its text and one more for
its end. `Outbox.Takes` says that there is room for some lines, and `Outbox.after` is the outbox
when they have been sent. Sending lines one after the other is then sending them together, which is
what the induction over a conversation needs.
-/

namespace CitationFilter

namespace Outbox

variable {outbox : Outbox}

/-- How many bytes some lines take. -/
def size (lines : List String) : Nat := (lines.map fun line ↦ line.utf8ByteSize + 1).sum

theorem size_append (lines more : List String) : size (lines ++ more) = size lines + size more := by
  rw [size, List.map_append, List.sum_append, size, size]

/-- There is room for these lines. -/
def Takes (outbox : Outbox) (lines : List String) : Prop :=
  ∀ room ∈ outbox.room, size lines ≤ room

/-- The outbox when these lines have been sent. -/
def after (outbox : Outbox) (lines : List String) : Outbox :=
  ⟨outbox.sent ++ lines, outbox.room.map (· - size lines)⟩

/-- An input without a limit takes everything. -/
theorem takes_of_room_eq_none (h : outbox.room = none) (lines : List String) :
    outbox.Takes lines := by
  intro room hroom
  rw [h] at hroom
  cases hroom

theorem after_nil : outbox.after [] = outbox := by
  have hroom : outbox.room.map (· - size []) = outbox.room := by simp [size]
  rw [after, hroom, List.append_nil]

theorem after_after (lines more : List String) :
    (outbox.after lines).after more = outbox.after (lines ++ more) := by
  simp only [after, List.append_assoc, Option.map_map, size_append, Function.comp_def,
    Nat.sub_sub]

theorem takes_append {lines more : List String} :
    outbox.Takes (lines ++ more) ↔ outbox.Takes lines ∧ (outbox.after lines).Takes more := by
  simp only [Takes, after, size_append, Option.mem_def, Option.map_eq_some_iff,
    forall_exists_index, and_imp, forall_apply_eq_imp_iff₂]
  constructor
  · intro h
    exact ⟨fun room hroom ↦ by have := h room hroom; omega,
      fun room hroom ↦ by have := h room hroom; omega⟩
  · rintro ⟨hlines, hmore⟩ room hroom
    have := hlines room hroom
    have := hmore room hroom
    omega

theorem send_of_takes {message : Json} (h : outbox.Takes [message.text]) :
    outbox.send message = (.ok (), outbox.after [message.text]) := by
  have hsize : size [message.text] = message.text.utf8ByteSize + 1 := rfl
  obtain ⟨sent, room⟩ := outbox
  cases room with
  | none => rfl
  | some room =>
    have hroom : message.text.utf8ByteSize + 1 ≤ room := hsize ▸ h room rfl
    rw [send, sendLine]
    dsimp only
    rw [if_pos hroom, after, hsize]
    rfl

end Outbox

end CitationFilter
