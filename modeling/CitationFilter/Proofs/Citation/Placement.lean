import CitationFilter.Citation.Bibliography
import CitationFilter.Citation.Occurrence
import CitationFilter.Citation.Placement
import CitationFilter.Proofs.Document.Text
import Mathlib.Algebra.GroupWithZero.Nat
import Mathlib.Data.List.SplitLengths

/-!
# Where the formatted texts go

The rewriter takes texts off a queue while it walks through the blocks. Seen from outside, it cuts
the list of the texts into groups, one group for each cite node and as long as the node has
citations, and fills the places of the cite nodes with them: `Placement.placed`. With enough texts
in the queue the two agree (`Placement.run_eq`), and what is left are the texts behind the last
group. The heading for the bibliography stays where it is.
-/

namespace CitationFilter

/-! ## Taking from the queue -/

namespace FormattedQueue

theorem take_of_le {texts : List String} {n : Nat} (h : n ≤ texts.length) :
    take ⟨texts⟩ n = .ok (texts.take n, ⟨texts.drop n⟩) :=
  if_neg (Nat.not_lt.mpr h)

theorem runFrom_taking (n : Nat) (queue : FormattedQueue) :
    Step.runFrom (taking n) queue =
      match queue.take n with
      | .ok (texts, rest) => (.ok texts, rest)
      | .error e => (.error e, queue) := by
  have hget : Step.runFrom (ε := Error) (get : ExceptT Error (StateM FormattedQueue) _) queue
      = (.ok queue, queue) := rfl
  rw [taking, Step.runFrom_bind_of_ok hget]
  rcases queue.take n with _ | ⟨texts, rest⟩ <;> rfl

end FormattedQueue

namespace Placement

/-! ## One cite node -/

theorem runFrom_replaceCite_of_le (format : String) (cite : Cite) {texts : List String}
    (h : cite.citations.length ≤ texts.length) :
    Step.runFrom (replaceCite format cite) ⟨texts⟩
      = (.ok (.rawInline format (joined (texts.take cite.citations.length))),
          ⟨texts.drop cite.citations.length⟩) := by
  have htake : Step.runFrom (FormattedQueue.taking cite.citations.length) ⟨texts⟩
      = (.ok (texts.take cite.citations.length), ⟨texts.drop cite.citations.length⟩) := by
    rw [FormattedQueue.runFrom_taking, FormattedQueue.take_of_le h]
  rw [replaceCite, Step.runFrom_bind_of_ok htake, Step.runFrom_pure]

/-! ## All cite nodes -/

/-- How many citations each cite node of the blocks has, in document order. -/
def sizes (blocks : List Node) : List Nat :=
  (Node.listCites blocks).map fun cite ↦ cite.citations.length

/-- The blocks with the texts in the places of their cite nodes: each node gets the next texts, as
many as it has citations. -/
def placed (format : String) (texts : List String) (blocks : List Node) : List Node :=
  Node.listFilled blocks
    (((sizes blocks).splitLengths texts).map fun group ↦ .rawInline format (joined group))

theorem length_extract (blocks : List Node) :
    (Occurrence.extract blocks).length = (sizes blocks).sum := by
  rw [Occurrence.extract, List.length_flatMap, sizes]
  simp only [Occurrence.ofCite, List.length_map]

/-- The rewriter gives each cite node its group of texts, as long as there are enough texts. -/
theorem answers_replaceCite (format : String) (cites : List Cite) {texts : List String}
    (h : (cites.map fun cite ↦ cite.citations.length).sum ≤ texts.length) :
    Step.Answers (replaceCite format) ⟨texts⟩ cites
      (((cites.map fun cite ↦ cite.citations.length).splitLengths texts).map fun group ↦
        .rawInline format (joined group))
      ⟨texts.drop (cites.map fun cite ↦ cite.citations.length).sum⟩ := by
  induction cites generalizing texts with
  | nil => exact .nil _
  | cons cite cites ih =>
    rw [List.map_cons, List.sum_cons] at h
    rw [List.map_cons, List.splitLengths_cons, List.map_cons, List.sum_cons, ← List.drop_drop]
    -- the first cite node leaves the texts for the others in the queue
    refine .cons (runFrom_replaceCite_of_le format cite (by omega)) (ih ?_)
    rw [List.length_drop]
    omega

/-- With a text for every occurrence the rewriter succeeds. It places the texts in order, and the
texts that are left over stay in the queue. -/
theorem run_eq (format : String) (blocks : List Node) {texts : List String}
    (h : (Occurrence.extract blocks).length ≤ texts.length) :
    run format ⟨texts⟩ blocks
      = (.ok (placed format texts blocks),
          ⟨texts.drop (Occurrence.extract blocks).length⟩) := by
  rw [length_extract] at h ⊢
  show Step.runFrom (Node.listMapCitesM (replaceCite format) blocks) ⟨texts⟩ = _
  rw [Node.listMapCitesM_eq,
    Step.runFrom_bind_of_ok (answers_replaceCite format (Node.listCites blocks) h).runFrom_mapM,
    Step.runFrom_pure]
  rfl

end Placement

/-! ## The heading for the bibliography -/

namespace Bibliography

/-- Resolving citations does not move the heading for the bibliography. -/
theorem headingIndex?_listFilled (blocks : List Node) {nodes : List Node}
    (h : ∀ node ∈ nodes, node.Mute) :
    headingIndex? (Node.listFilled blocks nodes) = headingIndex? blocks := by
  rw [headingIndex?, headingIndex?]
  induction blocks generalizing nodes with
  | nil => rw [Node.listFilled]
  | cons block rest ih =>
    have hblock : isHeading (block.filled nodes) = isHeading block := by
      rw [isHeading, isHeading, Node.title?_filled block h]
    rw [Node.listFilled, List.findIdx?_cons, List.findIdx?_cons, hblock,
      ih (Node.forall_mem_drop h _)]

theorem headingIndex?_placed (format : String) (texts : List String) (blocks : List Node) :
    headingIndex? (Placement.placed format texts blocks) = headingIndex? blocks := by
  refine headingIndex?_listFilled blocks fun node hnode ↦ ?_
  obtain ⟨group, -, rfl⟩ := List.mem_map.mp hnode
  exact Node.mute_rawInline format _

end Bibliography

end CitationFilter
