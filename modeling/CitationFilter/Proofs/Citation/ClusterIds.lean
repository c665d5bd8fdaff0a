import CitationFilter.Proofs.Citation.Plan
import CitationFilter.Proofs.Json.Numeral

/-!
# No two clusters have the same id

The id of a cluster is the id of the item, an underscore and the number of the cluster. The id of
the item may be any text, also an empty one, or one that ends like the id of a cluster. But the
digits at the end of the whole go back to the underscore and no further, so the number can be read
from them, and clusters with different numbers have different ids.
-/

namespace CitationFilter

namespace Cluster

/-! ## Reading the number back -/

/-- The number in the digits at the end of a text. -/
def numberAtEnd (text : String) : Nat :=
  Nat.ofDigitChars 10 (text.toList.reverse.takeWhile Char.isDigit).reverse 0

theorem numberAtEnd_append (itemId : String) (n : Nat) :
    numberAtEnd (itemId ++ "_" ++ toString n) = n := by
  have hchars : (itemId ++ "_" ++ toString n).toList.reverse
      = (Nat.toDigits 10 n).reverse ++ '_' :: itemId.toList.reverse := by
    simp [Nat.toString_eq_repr, Nat.toList_repr]
  have hdigits : ∀ c ∈ (Nat.toDigits 10 n).reverse, c.isDigit := fun c hc ↦
    Json.isDigit_of_mem_toDigits (List.mem_reverse.mp hc)
  -- the digits go back to the underscore, whatever stands before it
  have hend : Json.Number.NoDigitFirst ('_' :: itemId.toList.reverse) :=
    Json.Number.noDigitFirst_cons (by decide) _
  rw [numberAtEnd, hchars, Json.Number.takeWhile_isDigit hdigits hend, List.reverse_reverse,
    Nat.ofDigitChars_ten_toDigits]

/-! ## The clusters of occurrences -/

theorem numberedFrom_cons (start : Nat) (occurrence : Occurrence) (rest : List Occurrence) :
    numberedFrom start (occurrence :: rest)
      = ofOccurrence occurrence start :: numberedFrom (start + 1) rest := rfl

theorem getElem?_numberedFrom (occurrences : List Occurrence) (i : Nat) :
    (numberedFrom 0 occurrences)[i]? = occurrences[i]?.map fun o ↦ ofOccurrence o i := by
  rw [numberedFrom, List.getElem?_map, List.getElem?_zipIdx, Option.map_map, Nat.zero_add]
  rfl

theorem map_numberAtEnd_ids (start : Nat) (occurrences : List Occurrence) :
    ((numberedFrom start occurrences).map Cluster.id).map numberAtEnd
      = List.range' start occurrences.length := by
  induction occurrences generalizing start with
  | nil => rfl
  | cons occurrence rest ih =>
    rw [numberedFrom_cons, List.map_cons, List.map_cons, ih, List.length_cons, List.range'_succ,
      ofOccurrence, numberAtEnd_append]

/-- The numbers are all different and can be read back, so the ids are different too. -/
theorem nodup_ids (start : Nat) (occurrences : List Occurrence) :
    ((numberedFrom start occurrences).map Cluster.id).Nodup := by
  refine List.Nodup.of_map numberAtEnd ?_
  rw [map_numberAtEnd_ids]
  exact List.nodup_range'

/-! ## Positions -/

theorem nodup_of_mem_requests {clusters : List Cluster} (h : (clusters.map Cluster.id).Nodup)
    {cluster : Cluster} {before after : List Position}
    (hmem : .processCluster cluster before after ∈ requests clusters) :
    (before.map Position.clusterId ++ [cluster.id]).Nodup := by
  obtain ⟨k, hk, hrequest⟩ := List.mem_mapIdx.mp hmem
  obtain ⟨rfl, rfl, -⟩ := Request.processCluster.inj hrequest
  have hids : ((clusters.take k).map position).map Position.clusterId ++ [clusters[k].id]
      = (clusters.map Cluster.id).take (k + 1) := by
    rw [List.map_map, List.take_add_one, ← List.map_take, List.getElem?_map,
      List.getElem?_eq_getElem hk]
    rfl
  rw [hids]
  exact h.sublist (List.take_sublist _ _)

/-- **One cluster for each occurrence.** The clusters can be built exactly if all items are in the
store, and otherwise the first one that is not is reported. Each cluster has the number of its
occurrence and the one item that is cited there, with its locator. All ids are different, whatever
the ids of the items are, so in the request for a cluster no two clusters go by the same id. -/
theorem one_cluster_for_each (store : Store) (occurrences : List Occurrence) :
    ((∃ clusters, build store occurrences = .ok clusters) ↔
      ∀ occurrence ∈ occurrences, occurrence.itemId ∈ store.ids) ∧
    (∀ e, build store occurrences = .error e ↔
      ∃ before missing after, occurrences = before ++ missing :: after ∧
        (∀ occurrence ∈ before, occurrence.itemId ∈ store.ids) ∧
        missing.itemId ∉ store.ids ∧ e = .itemNotFound missing.itemId) ∧
    ∀ clusters, build store occurrences = .ok clusters →
      (∀ i : Nat, clusters[i]? = occurrences[i]?.map fun occurrence ↦ {
        id := occurrence.itemId ++ "_" ++ toString i
        items := [⟨occurrence.itemId, occurrence.locator⟩]
        noteIndex := i }) ∧
      (clusters.map Cluster.id).Nodup ∧
      ∀ cluster before after, .processCluster cluster before after ∈ requests clusters →
        (before.map Position.clusterId ++ [cluster.id]).Nodup := by
  refine ⟨?_, fun e ↦ build_eq_error_iff, ?_⟩
  · simp only [build_eq_ok_iff, exists_and_left, exists_eq, and_true]
  · intro clusters hbuild
    obtain ⟨-, rfl⟩ := build_eq_ok_iff.mp hbuild
    have hids := nodup_ids 0 occurrences
    exact ⟨getElem?_numberedFrom occurrences, hids,
      fun cluster before after hmem ↦ nodup_of_mem_requests hids hmem⟩

/-- The id of an item may be empty, or may be the id of another cluster than its own: `a_1` is here
the id of the second cluster. If two items are missing the first one is reported. -/
theorem one_cluster_for_each_sample :
    let occurrences : List Occurrence :=
      [⟨"a_1", none⟩, ⟨"a", some "p. 1"⟩, ⟨"", none⟩, ⟨"a", none⟩]
    let store : Store := ⟨[⟨"a", []⟩, ⟨"a_1", []⟩, ⟨"", []⟩], []⟩
    (∃ clusters, build store occurrences = .ok clusters ∧
      clusters.map Cluster.id = ["a_1_0", "a_1", "_2", "a_3"] ∧
      (clusters.map Cluster.id).Nodup ∧
      clusters[1]? = some ⟨"a_1", [⟨"a", some "p. 1"⟩], 1⟩) ∧
    build ⟨[⟨"a", []⟩], []⟩ occurrences = .error (.itemNotFound "a_1") := by
  intro occurrences store
  obtain ⟨hsucceeds, -, hclusters⟩ := one_cluster_for_each store occurrences
  obtain ⟨clusters, hbuild⟩ := hsucceeds.mpr (by decide)
  obtain ⟨heach, hids, -⟩ := hclusters clusters hbuild
  obtain ⟨-, hmissing, -⟩ := one_cluster_for_each ⟨[⟨"a", []⟩], []⟩ occurrences
  refine ⟨⟨clusters, hbuild, ?_, hids, heach 1⟩, (hmissing _).mpr ?_⟩
  · obtain rfl := (build_eq_ok_iff.mp hbuild).2
    rfl
  · exact ⟨[], ⟨"a_1", none⟩, _, rfl, by decide, by decide, rfl⟩

end Cluster

end CitationFilter
