import CitationFilter.Proofs.Citation.Consumption

/-!
# Every text of a queue is accounted for

A queue may be asked for texts any number of times, for any number of them each time, and what
becomes of one call does not keep the next one from being made. `FormattedQueue.takes` is such a
sequence of calls.

A call is served or refused (`FormattedQueue.Takes`), and it is refused only if there are too few
texts. Since a refused call leaves the queue as it was, the texts that have been handed out and
those that are left always make up the queue that there was at first.
-/

namespace CitationFilter

namespace FormattedQueue

/-! ## One call -/

/-- What a call for `n` texts comes to: the texts come off the front, or there are too few of them
and the queue stays as it was. -/
inductive Takes (n : Nat) : FormattedQueue → Except Error (List String) → FormattedQueue → Prop
  | served {texts : List String} (rest : List String) : texts.length = n →
      Takes n ⟨texts ++ rest⟩ (.ok texts) ⟨rest⟩
  | refused {queue : FormattedQueue} : queue.length < n →
      Takes n queue (.error .queueExhausted) queue

theorem takes_taking (n : Nat) (queue : FormattedQueue) :
    Takes n queue (Step.runFrom (taking n) queue).1 (Step.runFrom (taking n) queue).2 := by
  obtain ⟨texts⟩ := queue
  rw [runFrom_taking]
  by_cases h : texts.length < n
  · have htake : take ⟨texts⟩ n = .error .queueExhausted := if_pos h
    rw [htake]
    exact .refused h
  · have hle : n ≤ texts.length := Nat.le_of_not_lt h
    have hserved := @Takes.served n (texts.take n) (texts.drop n) (List.length_take_of_le hle)
    rw [List.take_append_drop] at hserved
    rw [take_of_le hle]
    exact hserved

/-- The number of texts alone decides which of the two it is. -/
theorem Takes.cases_lt {n : Nat} {queue left : FormattedQueue}
    {answer : Except Error (List String)} (h : Takes n queue answer left) :
    (queue.length < n ∧ answer = .error .queueExhausted ∧ left = queue) ∨
    (n ≤ queue.length ∧ answer = .ok (queue.texts.take n) ∧ left = ⟨queue.texts.drop n⟩) := by
  cases h with
  | served rest hlength =>
    refine Or.inr ⟨?_, ?_, ?_⟩
    · rw [length, List.length_append, hlength]
      exact Nat.le_add_right n _
    · rw [List.take_left' hlength]
    · rw [List.drop_left' hlength]
  | refused hlt => exact Or.inl ⟨hlt, rfl, rfl⟩

/-! ## Many calls -/

/-- Asks for texts one time after the other, whatever becomes of each call. -/
def takes (ns : List Nat) : StateM FormattedQueue (List (Except Error (List String))) :=
  ns.mapM fun n ↦ (taking n).run

theorem run_takes_cons (n : Nat) (ns : List Nat) (queue : FormattedQueue) :
    (takes (n :: ns)).run queue =
      ((Step.runFrom (taking n) queue).1 ::
          ((takes ns).run (Step.runFrom (taking n) queue).2).1,
        ((takes ns).run (Step.runFrom (taking n) queue).2).2) := by
  rw [takes, List.mapM_cons]
  rfl

theorem run_takes_append (ms ns : List Nat) (queue : FormattedQueue) :
    (takes (ms ++ ns)).run queue =
      (((takes ms).run queue).1 ++ ((takes ns).run ((takes ms).run queue).2).1,
        ((takes ns).run ((takes ms).run queue).2).2) := by
  rw [takes, List.mapM_append]
  rfl

/-- What many calls come to, one after the other along the chain of queues. -/
inductive Serves :
    FormattedQueue → List Nat → List (Except Error (List String)) → FormattedQueue → Prop
  | nil (queue : FormattedQueue) : Serves queue [] [] queue
  | cons {queue next left : FormattedQueue} {n : Nat} {ns : List Nat}
      {answer : Except Error (List String)} {answers : List (Except Error (List String))} :
      Takes n queue answer next → Serves next ns answers left →
      Serves queue (n :: ns) (answer :: answers) left

theorem serves_takes (ns : List Nat) (queue : FormattedQueue) :
    Serves queue ns ((takes ns).run queue).1 ((takes ns).run queue).2 := by
  induction ns generalizing queue with
  | nil => exact .nil queue
  | cons n ns ih =>
    rw [run_takes_cons]
    exact .cons (takes_taking n queue) (ih _)

theorem Serves.length_eq {queue left : FormattedQueue} {ns : List Nat}
    {answers : List (Except Error (List String))} (h : Serves queue ns answers left) :
    answers.length = ns.length := by
  induction h with
  | nil => rfl
  | cons _ _ ih => rw [List.length_cons, List.length_cons, ih]

/-- A call in the middle is made to the queue that the calls before it have left. -/
theorem takes_at (before : List Nat) (n : Nat) (after : List Nat) (queue : FormattedQueue) :
    ((takes (before ++ n :: after)).run queue).1[before.length]?
        = some (Step.runFrom (taking n) ((takes before).run queue).2).1 ∧
      ((takes (before ++ [n])).run queue).2
        = (Step.runFrom (taking n) ((takes before).run queue).2).2 := by
  have hlength : ((takes before).run queue).1.length = before.length :=
    (serves_takes before queue).length_eq
  rw [run_takes_append, run_takes_append, run_takes_cons, run_takes_cons]
  refine ⟨?_, rfl⟩
  rw [← hlength, List.getElem?_append_right (Nat.le_refl _), Nat.sub_self, List.getElem?_cons_zero]

/-- The texts that some calls have handed out, in order. -/
def handedOut (answers : List (Except Error (List String))) : List String :=
  (answers.filterMap Except.toOption).flatten

/-- How many texts the calls that were served had asked for, all together. -/
def granted (ns : List Nat) (answers : List (Except Error (List String))) : Nat :=
  ((ns.zip answers).map fun call ↦ if call.2.toBool then call.1 else 0).sum

section Serves

variable {queue left : FormattedQueue} {ns : List Nat} {answers : List (Except Error (List String))}

theorem Serves.handedOut_append (h : Serves queue ns answers left) :
    handedOut answers ++ left.texts = queue.texts := by
  induction h with
  | nil => rfl
  | @cons queue next left n ns answer answers hcall _ ih =>
    cases hcall with
    | @served texts rest hlength =>
      have hfirst : handedOut (.ok texts :: answers) = texts ++ handedOut answers := rfl
      rw [hfirst, List.append_assoc, ih]
    | refused => exact ih

theorem Serves.length_handedOut (h : Serves queue ns answers left) :
    (handedOut answers).length = granted ns answers := by
  induction h with
  | nil => rfl
  | @cons queue next left n ns answer answers hcall _ ih =>
    cases hcall with
    | @served texts rest hlength =>
      have hfirst : handedOut (.ok texts :: answers) = texts ++ handedOut answers := rfl
      have hgranted : granted (n :: ns) (.ok texts :: answers) = n + granted ns answers := rfl
      rw [hfirst, hgranted, List.length_append, hlength, ih]
    | refused =>
      have hgranted : granted (n :: ns) (.error .queueExhausted :: answers)
          = 0 + granted ns answers := rfl
      rw [hgranted, Nat.zero_add]
      exact ih

theorem Serves.granted_add_length (h : Serves queue ns answers left) :
    granted ns answers + left.length = queue.length := by
  rw [← h.length_handedOut, length, length, ← List.length_append, h.handedOut_append]

end Serves

/-- **Every text is accounted for.** Whatever a queue is asked for and however often, the texts that
are handed out, in order, and those that are left are the texts of the queue. A call is refused
exactly if it asks for more texts than there are at that time, and then it changes nothing; any
other call gets the texts from the front. The queue is finished exactly if the calls that were
served had asked for as many texts as there were, and otherwise the number of those that are left is
reported. -/
theorem every_text_accounted_for (queue : FormattedQueue) (ns : List Nat) :
    ∃ answers left, (takes ns).run queue = (answers, left) ∧
      answers.length = ns.length ∧
      handedOut answers ++ left.texts = queue.texts ∧
      (∀ before n after, ns = before ++ n :: after →
        let now := ((takes before).run queue).2
        let next := ((takes (before ++ [n])).run queue).2
        (now.length < n ∧ answers[before.length]? = some (.error .queueExhausted) ∧ next = now) ∨
        (n ≤ now.length ∧ answers[before.length]? = some (.ok (now.texts.take n)) ∧
          next = ⟨now.texts.drop n⟩)) ∧
      (left.finish = .ok () ↔ granted ns answers = queue.length) ∧
      ∀ surplus, queue.length = granted ns answers + surplus → surplus ≠ 0 →
        left.finish = .error (.queueNotDrained surplus) := by
  have hserves := serves_takes ns queue
  have hgranted := hserves.granted_add_length
  refine ⟨((takes ns).run queue).1, ((takes ns).run queue).2, rfl, hserves.length_eq,
    hserves.handedOut_append, ?_, ?_, ?_⟩
  · rintro before n after rfl now next
    obtain ⟨hanswer, hnext⟩ := takes_at before n after queue
    rw [hanswer, Option.some.injEq, Option.some.injEq]
    rw [show next = _ from hnext]
    exact (takes_taking n now).cases_lt
  · rw [finish_eq_ok_iff]
    omega
  · intro surplus hsurplus hne
    have hleft : ((takes ns).run queue).2.length = surplus := by omega
    rw [finish_of_length_ne_zero (by omega), hleft]

/-- A call for too many texts is refused between two that are served, and in the end one text is
left. -/
theorem every_text_accounted_for_sample :
    ∃ answers left, (takes [1, 4, 2, 0, 2]).run ⟨["A", "B", "C", "D"]⟩ = (answers, left) ∧
      answers =
        [.ok ["A"], .error .queueExhausted, .ok ["B", "C"], .ok [], .error .queueExhausted] ∧
      handedOut answers ++ left.texts = ["A", "B", "C", "D"] ∧
      left.finish = .error (.queueNotDrained 1) := by
  obtain ⟨answers, left, hrun, -, haccount, -, -, hsurplus⟩ :=
    every_text_accounted_for ⟨["A", "B", "C", "D"]⟩ [1, 4, 2, 0, 2]
  obtain ⟨rfl, rfl⟩ := Prod.mk.inj hrun
  exact ⟨_, _, rfl, rfl, haccount, hsurplus 1 rfl (by decide)⟩

end FormattedQueue

end CitationFilter
