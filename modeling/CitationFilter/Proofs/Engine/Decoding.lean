import CitationFilter.Proofs.Citation.ClusterIds
import CitationFilter.Proofs.Engine.Results
import CitationFilter.Proofs.Json.Reader

/-!
# Clusters come back from what is sent

The request for a cluster carries the cluster and the positions of the clusters around it. Reading
undoes writing for both, so nothing about them is lost on the way: two requests with the same line
are about the same cluster and the same positions. In particular an item without a locator and one
with an empty locator are written differently.

Numbers of notes have 64 bits, and this is all that is asked of a cluster or a position here.
-/

namespace CitationFilter

namespace Json

/-! ## Counts, lists and texts -/

theorem asCount_ofCount {n : Nat} (h : n < twoTo 64) : asCount (.ofCount n) = .ok n := by
  rw [ofCount, asCount, Outcome.count?_eq_some_iff.mpr ⟨rfl, h⟩]

theorem asList_map {α : Type} {write : α → Json} {read : Json → Except ShapeError α} {as : List α}
    (h : ∀ a ∈ as, read (write a) = .ok a) : asList read (.arr (as.map write)) = .ok as := by
  refine asList_eq_ok_iff.mpr ⟨_, rfl, ?_⟩
  rw [List.forall₂_map_left_iff, List.forall₂_same]
  exact h

theorem eq_of_read {α : Type} {read : Json → Except ShapeError α} {v w : Json} {a b : α}
    (ha : read v = .ok a) (hb : read w = .ok b) (h : v = w) : a = b := by
  rw [h, hb] at ha
  exact (Except.ok.inj ha).symm

/-- A value that fits is read from its text as itself if its numbers are. -/
theorem Fits.readAll?_text_eq {v : Json}
    (h : Fits (fun x ↦ Number.ofChars? x.chars = some x) Reader.deepest v) :
    readAll? v.text = some v := by
  rw [(h.imp fun _ hx ↦ Number.legible_of_eq_some hx).readAll?_text,
    (h.imp fun _ hx ↦ Number.reread_eq_of_eq_some hx).reread_eq]

theorem Number.ofChars?_count {n : Nat} (h : n < twoTo 64) :
    ofChars? (Number.int n).chars = some (.int n) :=
  ofChars?_intChars ⟨Int.le_trans (by decide) (Int.natCast_nonneg n), Int.ofNat_lt.mpr h⟩

end Json

/-! ## Reading what was written -/

namespace ClusterItem

theorem ofJson_toJson (item : ClusterItem) : ofJson item.toJson = .ok item := by
  obtain ⟨id, locator⟩ := item
  cases locator with
  | none => rfl
  | some locator => rfl

theorem get?_locator_toJson (item : ClusterItem) :
    item.toJson.get? "locator" = item.locator.map .str := by
  obtain ⟨id, locator⟩ := item
  cases locator with
  | none => rfl
  | some locator => rfl

end ClusterItem

namespace Cluster

theorem noteIndexOfJson_ofCount {n : Nat} (h : n < twoTo 64) :
    noteIndexOfJson (.obj [("noteIndex", .ofCount n)]) = .ok n := by
  rw [noteIndexOfJson, Json.asRecord_eq_ok_iff]
  exact Or.inl ⟨_, rfl, Json.required_eq_ok_iff.mpr ⟨_, rfl, Json.asCount_ofCount h⟩⟩

theorem ofJson_toJson {cluster : Cluster} (h : cluster.noteIndex < twoTo 64) :
    ofJson cluster.toJson = .ok cluster := by
  have hitems : Json.asList ClusterItem.ofJson (.arr (cluster.items.map (·.toJson)))
      = .ok cluster.items :=
    Json.asList_map fun item _ ↦ item.ofJson_toJson
  have hproperties := noteIndexOfJson_ofCount h
  rw [ofJson, Json.asRecord_eq_ok_iff]
  refine Or.inl ⟨_, rfl, Except.bind_eq_ok.mpr ⟨(), ?_, ?_⟩⟩
  · rw [Json.checkFields_eq_ok_iff]
    simp [List.lookup_cons, Json.check_eq_ok_iff, hitems, hproperties, Json.asText]
  · refine Except.bind_eq_ok.mpr ⟨cluster.id, rfl, ?_⟩
    refine Except.bind_eq_ok.mpr ⟨cluster.items, Json.required_eq_ok_iff.mpr ⟨_, rfl, hitems⟩, ?_⟩
    exact Except.bind_eq_ok.mpr
      ⟨cluster.noteIndex, Json.required_eq_ok_iff.mpr ⟨_, rfl, hproperties⟩, rfl⟩

end Cluster

theorem Position.ofJson_toJson {position : Position} (h : position.noteIndex < twoTo 64) :
    ofJson position.toJson = .ok position := by
  have hpair : Json.asPair Json.asText Json.asCount (.record .clusterPosition) position.toJson
      = .ok (position.clusterId, position.noteIndex) :=
    Json.asPair_eq_ok_iff.mpr ⟨_, _, rfl, rfl, Json.asCount_ofCount h⟩
  rw [ofJson, hpair]
  rfl

/-! ## The line of a request -/

section Fits

variable {wanted : Json.Number → Prop}

theorem ClusterItem.fits_toJson (item : ClusterItem) : Json.Fits wanted 1 item.toJson := by
  obtain ⟨id, locator⟩ := item
  cases locator with
  | none => exact .obj (by simp [Json.keys]) (List.forall_mem_singleton.mpr .str)
  | some locator =>
    exact .obj (by simp [Json.keys])
      (List.forall_mem_cons.mpr ⟨.str, List.forall_mem_singleton.mpr .str⟩)

theorem Cluster.fits_toJson {cluster : Cluster} (h : wanted (.int cluster.noteIndex)) :
    Json.Fits wanted 3 cluster.toJson := by
  have hitems : Json.Fits wanted 2 (.arr (cluster.items.map (·.toJson))) :=
    .arr (List.forall_mem_map.mpr fun item _ ↦ item.fits_toJson)
  have hproperties : Json.Fits wanted 2 (.obj [("noteIndex", .ofCount cluster.noteIndex)]) :=
    .obj (by simp [Json.keys]) (List.forall_mem_singleton.mpr (.num h))
  exact .obj (by simp [Json.keys]) (List.forall_mem_cons.mpr
    ⟨.str, List.forall_mem_cons.mpr ⟨hitems, List.forall_mem_singleton.mpr hproperties⟩⟩)

theorem Request.fits_positions {positions : List Position}
    (h : ∀ position ∈ positions, wanted (.int position.noteIndex)) :
    Json.Fits wanted 2 (Request.positions positions) :=
  .arr (List.forall_mem_map.mpr fun position hmem ↦ .arr (List.forall_mem_cons.mpr
    ⟨.str, List.forall_mem_singleton.mpr (.num (h position hmem))⟩))

end Fits

namespace Request

/-- The numbers of notes in a request for a cluster have 64 bits. -/
def Numbered (cluster : Cluster) (before after : List Position) : Prop :=
  cluster.noteIndex < twoTo 64 ∧ ∀ position ∈ before ++ after, position.noteIndex < twoTo 64

variable {cluster : Cluster} {before after : List Position}

theorem readAll?_line (h : Numbered cluster before after) :
    Json.readAll? (processCluster cluster before after).line
      = some (processCluster cluster before after).toJson := by
  obtain ⟨hcluster, hpositions⟩ := h
  obtain ⟨hbefore, hafter⟩ := List.forall_mem_append.mp hpositions
  apply Json.Fits.readAll?_text_eq
  have hparams : Json.Fits (fun x ↦ Json.Number.ofChars? x.chars = some x) 4
      (processCluster cluster before after).params :=
    .arr (List.forall_mem_cons.mpr ⟨Cluster.fits_toJson (Json.Number.ofChars?_count hcluster),
      List.forall_mem_cons.mpr
        ⟨(fits_positions fun position hmem ↦
            Json.Number.ofChars?_count (hbefore position hmem)).mono (by decide),
          List.forall_mem_singleton.mpr ((fits_positions fun position hmem ↦
            Json.Number.ofChars?_count (hafter position hmem)).mono (by decide))⟩⟩)
  have hrequest : Json.Fits (fun x ↦ Json.Number.ofChars? x.chars = some x) 5
      (processCluster cluster before after).toJson :=
    .obj (by simp [Json.keys])
      (List.forall_mem_cons.mpr ⟨.str, List.forall_mem_singleton.mpr hparams⟩)
  exact hrequest.mono (by decide)

theorem asList_positions {positions : List Position}
    (h : ∀ position ∈ positions, position.noteIndex < twoTo 64) :
    Json.asList Position.ofJson (Request.positions positions) = .ok positions :=
  Json.asList_map fun position hmem ↦ Position.ofJson_toJson (h position hmem)

/-- The line of a request tells what the request is about. -/
theorem eq_of_line_eq {other : Cluster} {before' after' : List Position}
    (h : Numbered cluster before after) (h' : Numbered other before' after')
    (hline : (processCluster cluster before after).line
      = (processCluster other before' after').line) :
    cluster = other ∧ before = before' ∧ after = after' := by
  have hvalue : (processCluster cluster before after).toJson
      = (processCluster other before' after').toJson := by
    rw [← Option.some.injEq, ← readAll?_line h, hline, readAll?_line h']
  have hparams : some (Json.arr [cluster.toJson, positions before, positions after])
      = some (.arr [other.toJson, positions before', positions after']) :=
    congrArg (Json.get? "params") hvalue
  simp only [Option.some.injEq, Json.arr.injEq, List.cons.injEq, and_true] at hparams
  obtain ⟨hcluster, hbefore, hafter⟩ := hparams
  obtain ⟨hnumber, hnumbers⟩ := h
  obtain ⟨hnumber', hnumbers'⟩ := h'
  rw [List.forall_mem_append] at hnumbers hnumbers'
  refine ⟨?_, ?_, ?_⟩
  · exact Json.eq_of_read (Cluster.ofJson_toJson hnumber) (Cluster.ofJson_toJson hnumber') hcluster
  · exact Json.eq_of_read (asList_positions hnumbers.1) (asList_positions hnumbers'.1) hbefore
  · exact Json.eq_of_read (asList_positions hnumbers.2) (asList_positions hnumbers'.2) hafter

end Request

namespace Cluster

/-- **Clusters come back from what is sent.** A cluster whose number has 64 bits is what its value
is read as, and so is a position. So the requests for two different clusters, or with different
positions around them, are never the same line. An item is written with a locator exactly if it has
one, and with just that one, and the item in the cluster of an occurrence has the locator of the
occurrence. -/
theorem decoding_undoes_encoding :
    (∀ cluster : Cluster, cluster.noteIndex < twoTo 64 →
      ofJson cluster.toJson = .ok cluster) ∧
    (∀ position : Position, position.noteIndex < twoTo 64 →
      Position.ofJson position.toJson = .ok position) ∧
    (∀ cluster before after other before' after',
      Request.Numbered cluster before after → Request.Numbered other before' after' →
      (Request.processCluster cluster before after).line
        = (Request.processCluster other before' after').line →
      cluster = other ∧ before = before' ∧ after = after') ∧
    (∀ item : ClusterItem, item.toJson.get? "locator" = item.locator.map .str) ∧
    ∀ store occurrences clusters, build store occurrences = .ok clusters →
      ∀ (i : Nat) occurrence, occurrences[i]? = some occurrence →
        ∃ cluster item, clusters[i]? = some cluster ∧
          cluster.toJson.get? "citationItems" = some (.arr [item]) ∧
          item.get? "locator" = occurrence.locator.map .str := by
  refine ⟨fun cluster h ↦ ofJson_toJson h, fun position h ↦ Position.ofJson_toJson h,
    fun cluster before after other before' after' h h' hline ↦ Request.eq_of_line_eq h h' hline,
    ClusterItem.get?_locator_toJson, ?_⟩
  intro store occurrences clusters hbuild i occurrence hoccurrence
  obtain ⟨-, rfl⟩ := build_eq_ok_iff.mp hbuild
  have hcluster : (numberedFrom 0 occurrences)[i]? = some (ofOccurrence occurrence i) := by
    rw [getElem?_numberedFrom, hoccurrence, Option.map_some]
  exact ⟨_, ClusterItem.toJson ⟨occurrence.itemId, occurrence.locator⟩, hcluster, rfl,
    ClusterItem.get?_locator_toJson _⟩

/-- An item without a locator, one with an empty locator and one with a locator, in the cluster with
the greatest number. Without the empty locator it would not be the same line. -/
theorem decoding_undoes_encoding_sample :
    let cluster (locator : Option String) : Cluster :=
      ⟨"a_0", [⟨"a", none⟩, ⟨"a", locator⟩, ⟨"b", some "p. 1"⟩], 2 ^ 64 - 1⟩
    ofJson (cluster (some "")).toJson = .ok (cluster (some "")) ∧
      (Request.processCluster (cluster (some "")) [⟨"c_0", 0⟩] []).line
        ≠ (Request.processCluster (cluster none) [⟨"c_0", 0⟩] []).line := by
  intro cluster
  obtain ⟨hcluster, -, hline, -, -⟩ := decoding_undoes_encoding
  refine ⟨hcluster _ (by decide), fun heq ↦ ?_⟩
  obtain ⟨hsame, -, -⟩ := hline _ _ _ _ _ _ ⟨by decide, by decide⟩ ⟨by decide, by decide⟩ heq
  exact absurd hsame (by decide)

end Cluster

end CitationFilter
