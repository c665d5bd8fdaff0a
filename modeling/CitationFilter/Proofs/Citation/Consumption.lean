import CitationFilter.Proofs.Citation.Placement

/-!
# How far the texts reach

The rewriter serves one cite node after the other and takes as many texts for it as it has
citations. It goes on as long as there are enough, and the first cite node for which there are not
ends it. By then the nodes before that one have been served, and what is left in the queue are the
texts behind theirs: a node that cannot be served takes nothing.
-/

namespace CitationFilter

namespace FormattedQueue

theorem finish_eq_ok_iff (queue : FormattedQueue) : queue.finish = .ok () ↔ queue.length = 0 := by
  rw [finish, isEmpty, length, List.length_eq_zero_iff]
  cases queue.texts with
  | nil => simp
  | cons text texts => simp

theorem finish_of_length_ne_zero {queue : FormattedQueue} (h : queue.length ≠ 0) :
    queue.finish = .error (.queueNotDrained queue.length) := by
  have hempty : queue.isEmpty = false := by
    rw [isEmpty, List.isEmpty_eq_false_iff]
    exact fun hnil ↦ h (List.length_eq_zero_iff.mpr hnil)
  rw [finish, hempty]
  rfl

end FormattedQueue

namespace Placement

/-- How many citations some cite nodes have together. -/
def citationCount (cites : List Cite) : Nat := (cites.map fun cite ↦ cite.citations.length).sum

theorem citationCount_cons (cite : Cite) (cites : List Cite) :
    citationCount (cite :: cites) = cite.citations.length + citationCount cites := rfl

theorem citationCount_append (cites more : List Cite) :
    citationCount (cites ++ more) = citationCount cites + citationCount more := by
  rw [citationCount, List.map_append, List.sum_append]
  rfl

theorem citationCount_listCites (blocks : List Node) :
    citationCount (Node.listCites blocks) = (Occurrence.extract blocks).length :=
  (length_extract blocks).symm

theorem citationCount_mono {cites more : List Cite} (h : cites <+: more) :
    citationCount cites ≤ citationCount more := by
  obtain ⟨rest, rfl⟩ := h
  rw [citationCount_append]
  exact Nat.le_add_right _ _

/-! ## One cite node -/

variable {format : String}

theorem runFrom_replaceCite_of_lt (format : String) {cite : Cite} {texts : List String}
    (h : texts.length < cite.citations.length) :
    Step.runFrom (replaceCite format cite) ⟨texts⟩ = (.error .queueExhausted, ⟨texts⟩) := by
  have htake : Step.runFrom (FormattedQueue.taking cite.citations.length) ⟨texts⟩
      = (.error .queueExhausted, ⟨texts⟩) := by
    rw [FormattedQueue.runFrom_taking, FormattedQueue.take, FormattedQueue.length, if_pos h]
  rw [replaceCite, Step.runFrom_bind_of_error htake]

theorem runFrom_replaceCite_eq_error {cite : Cite} {texts : List String} {e : Error}
    {left : FormattedQueue}
    (h : Step.runFrom (replaceCite format cite) ⟨texts⟩ = (.error e, left)) :
    texts.length < cite.citations.length ∧ e = .queueExhausted ∧ left = ⟨texts⟩ := by
  by_cases hlt : texts.length < cite.citations.length
  · rw [runFrom_replaceCite_of_lt format hlt] at h
    cases h
    exact ⟨hlt, rfl, rfl⟩
  · simp [runFrom_replaceCite_of_le format cite (Nat.le_of_not_lt hlt)] at h

/-! ## All cite nodes -/

theorem taken_of_answers {cites : List Cite} {queue left : FormattedQueue} {nodes : List Node}
    (h : Step.Answers (replaceCite format) queue cites nodes left) :
    citationCount cites ≤ queue.length ∧
      left = ⟨queue.texts.drop (citationCount cites)⟩ := by
  induction h with
  | nil queue => exact ⟨Nat.zero_le _, rfl⟩
  | @cons queue next left cite node cites nodes hcite _ ih =>
    obtain ⟨texts⟩ := queue
    by_cases hlt : texts.length < cite.citations.length
    · simp [runFrom_replaceCite_of_lt format hlt] at hcite
    · rw [runFrom_replaceCite_of_le format cite (Nat.le_of_not_lt hlt)] at hcite
      cases hcite
      obtain ⟨hcount, rfl⟩ := ih
      rw [FormattedQueue.length, List.length_drop] at hcount
      rw [citationCount_cons, List.drop_drop]
      refine ⟨?_, rfl⟩
      show cite.citations.length + citationCount cites ≤ texts.length
      omega

/-- The two ways in which the rewriter ends. There are enough texts for all cite nodes, or there is
a first cite node up to which they do not reach. -/
theorem run_cases (format : String) (blocks : List Node) (queue : FormattedQueue) :
    (citationCount (Node.listCites blocks) ≤ queue.length ∧ ∃ result,
      run format queue blocks
        = (.ok result, ⟨queue.texts.drop (citationCount (Node.listCites blocks))⟩)) ∨
    (∃ before cite after, Node.listCites blocks = before ++ cite :: after ∧
      citationCount before ≤ queue.length ∧
      queue.length < citationCount (before ++ [cite]) ∧
      run format queue blocks
        = (.error .queueExhausted, ⟨queue.texts.drop (citationCount before)⟩)) := by
  have hrun : run format queue blocks = Step.runFrom ((Node.listCites blocks).mapM
      (replaceCite format) >>= fun nodes ↦ pure (Node.listFilled blocks nodes)) queue := by
    rw [← Node.listMapCitesM_eq]
    rfl
  rw [hrun]
  rcases Step.runFrom_mapM (replaceCite format) (Node.listCites blocks) queue [] with
    ⟨nodes, left, hnodes, hall, -⟩ |
    ⟨before, cite, after, nodes, left, e, left', hsplit, hnodes, hcite, hfail, -⟩
  · obtain ⟨hcount, rfl⟩ := taken_of_answers hnodes
    refine Or.inl ⟨hcount, Node.listFilled blocks nodes, ?_⟩
    rw [Step.runFrom_bind_of_ok hall, Step.runFrom_pure]
  · obtain ⟨hcount, rfl⟩ := taken_of_answers hnodes
    obtain ⟨hlt, rfl, rfl⟩ := runFrom_replaceCite_eq_error hcite
    refine Or.inr ⟨before, cite, after, hsplit, hcount, ?_, Step.runFrom_bind_of_error hfail⟩
    rw [List.length_drop] at hlt
    rw [FormattedQueue.length, citationCount_append, citationCount_cons]
    omega

/-- **Texts are taken exactly as long as they suffice.** The rewriter succeeds if and only if the
queue has a text for every occurrence. Then it has taken one for each, so that none is left exactly
if there were as many, and otherwise what is left over is the surplus. If it fails the queue was
exhausted, at the first cite node up to which there are more citations than texts; the texts of the
cite nodes before it are gone, and all others are still there. -/
theorem succeeds_iff_enough_texts (format : String) (blocks : List Node) (queue : FormattedQueue) :
    ((∃ result left, run format queue blocks = (.ok result, left)) ↔
      (Occurrence.extract blocks).length ≤ queue.length) ∧
    (∀ result left, run format queue blocks = (.ok result, left) →
      left = ⟨queue.texts.drop (Occurrence.extract blocks).length⟩ ∧
      (left.finish = .ok () ↔ queue.length = (Occurrence.extract blocks).length) ∧
      ∀ surplus, queue.length = (Occurrence.extract blocks).length + surplus → surplus ≠ 0 →
        left.finish = .error (.queueNotDrained surplus)) ∧
    (∀ e left, run format queue blocks = (.error e, left) →
      e = .queueExhausted ∧
      ∃ before cite after, Node.listCites blocks = before ++ cite :: after ∧
        (∀ cites, cites <+: before → citationCount cites ≤ queue.length) ∧
        queue.length < citationCount (before ++ [cite]) ∧
        left = ⟨queue.texts.drop (citationCount before)⟩) := by
  rw [← citationCount_listCites]
  rcases run_cases format blocks queue with
    ⟨hcount, result, hrun⟩ | ⟨before, cite, after, hsplit, hbefore, hcite, hrun⟩
  · rw [hrun]
    refine ⟨iff_of_true ⟨result, _, rfl⟩ hcount, ?_, by simp⟩
    rintro result left ⟨⟩
    have hleft : FormattedQueue.length ⟨queue.texts.drop (citationCount (Node.listCites blocks))⟩
        = queue.length - citationCount (Node.listCites blocks) := List.length_drop
    refine ⟨rfl, ?_, fun surplus hsurplus hne ↦ ?_⟩
    · rw [FormattedQueue.finish_eq_ok_iff, hleft]
      omega
    · rw [FormattedQueue.finish_of_length_ne_zero (by omega), hleft, hsurplus,
        Nat.add_sub_cancel_left]
  · -- the cite node that was not served is among those of the blocks
    have hfew : queue.length < citationCount (Node.listCites blocks) := by
      refine Nat.lt_of_lt_of_le hcite (citationCount_mono ⟨after, ?_⟩)
      rw [hsplit, List.append_assoc, List.singleton_append]
    rw [hrun]
    refine ⟨iff_of_false (by simp) (Nat.not_le.mpr hfew), by simp, ?_⟩
    rintro e left ⟨⟩
    refine ⟨rfl, before, cite, after, hsplit, fun cites hcites ↦ ?_, hcite, rfl⟩
    exact (citationCount_mono hcites).trans hbefore

/-- Three citations in two cite nodes: of four texts one is left over, and of two texts the second
one stays in the queue, because the second cite node would need another one. -/
theorem succeeds_iff_enough_texts_sample :
    let blocks : List Node := [.cite ⟨[⟨"a", []⟩], .null⟩,
      .header .null .null [.cite ⟨[⟨"b", []⟩, ⟨"c", []⟩], .null⟩]]
    (run "html" ⟨["A", "B", "C", "D"]⟩ blocks).2.finish = .error (.queueNotDrained 1) ∧
    ∃ before cite after, Node.listCites blocks = before ++ cite :: after ∧
      2 < citationCount (before ++ [cite]) ∧
      (run "html" ⟨["A", "B"]⟩ blocks).2 = ⟨["A", "B"].drop (citationCount before)⟩ := by
  intro blocks
  obtain ⟨-, henough, -⟩ := succeeds_iff_enough_texts "html" blocks ⟨["A", "B", "C", "D"]⟩
  obtain ⟨-, -, hfew⟩ := succeeds_iff_enough_texts "html" blocks ⟨["A", "B"]⟩
  obtain ⟨-, -, hsurplus⟩ := henough _ _ rfl
  obtain ⟨-, before, cite, after, hsplit, -, hcite, hleft⟩ := hfew _ _ rfl
  exact ⟨hsurplus 1 rfl (by decide), before, cite, after, hsplit, hcite, hleft⟩

end Placement

end CitationFilter
