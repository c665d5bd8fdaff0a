import CitationFilter.Proofs.Citation.Engines
import CitationFilter.Proofs.Document.SameCitations

/-!
# What a resolution does not see

A resolution looks at the citations of a cite node and at nothing else in it. So it cannot tell two
documents apart that are the same but for the rest of their cite nodes: it asks the engine the same,
ends in the same state, and writes the same text or fails with the same error.

The second document is the first one with other cite nodes in the same places. Its occurrences are
those of the first one, and when the texts have taken the places of the cite nodes the blocks are
the same. From there on the two resolutions differ only in the object that the document is written
into, and only in the field that is about to be written.
-/

namespace CitationFilter

section Recited

variable {blocks : List Node} {others : List Cite}

theorem Occurrence.extract_listFilled
    (h : others.map Cite.citations = (Node.listCites blocks).map Cite.citations) :
    extract (Node.listFilled blocks (others.map .cite)) = extract blocks := by
  have hextract (cites : List Cite) :
      cites.flatMap ofCite = (cites.map Cite.citations).flatMap (List.map ofCitation) := by
    rw [List.flatMap_map]
    rfl
  rw [extract, extract, Node.listCites_listFilled blocks (Node.length_eq_of_map_citations h),
    hextract, hextract, h]

theorem Placement.sizes_listFilled
    (h : others.map Cite.citations = (Node.listCites blocks).map Cite.citations) :
    sizes (Node.listFilled blocks (others.map .cite)) = sizes blocks := by
  have hsizes (cites : List Cite) :
      (cites.map fun cite ↦ cite.citations.length)
        = (cites.map Cite.citations).map List.length := by
    rw [List.map_map]
    rfl
  rw [sizes, sizes, Node.listCites_listFilled blocks (Node.length_eq_of_map_citations h), hsizes,
    hsizes, h]

theorem Placement.placed_listFilled
    (h : others.map Cite.citations = (Node.listCites blocks).map Cite.citations)
    (format : String) (texts : List String) :
    placed format texts (Node.listFilled blocks (others.map .cite))
      = placed format texts blocks := by
  rw [placed, placed, sizes_listFilled h]
  refine Node.listFilled_listFilled blocks (Node.length_eq_of_map_citations h) ?_
  rw [List.length_map, List.length_splitLengths, sizes, List.length_map]

end Recited

namespace Resolution

variable {σ : Type}

/-- The two runs of a resolution look alike from outside. -/
structure Indistinguishable (run run' : Except Error Document × σ) : Prop where
  /-- They write the same text or fail with the same error. -/
  text : run'.1.map Document.toText = run.1.map Document.toText
  /-- They leave the same state. In a conversation this is what was sent and what is unread. -/
  state : run'.2 = run.2

theorem resolve_recited (engine : Engine σ) (store : Store) (format : String) (document : Document)
    {others : List Cite}
    (h : others.map Cite.citations = (Node.listCites document.blocks).map Cite.citations)
    (frame : List (String × Json)) :
    resolve engine store format { document with
        blocks := Node.listFilled document.blocks (others.map .cite), frame }
      = (fun result ↦ { result with frame }) <$> resolve engine store format document := by
  rw [resolve_eq, resolve_eq]
  simp only [Occurrence.extract_listFilled h, Placement.placed_listFilled h, map_bind, map_pure]
  rfl

/-- **Only the citations are seen.** If a document is read, then so is every document that is the
same but for what is in the cite nodes of its blocks besides the citations, and no engine, store or
format can tell the resolutions of the two apart. -/
theorem only_citations_are_seen {value value' : Json} {document : Document}
    (h : Document.ofJson value = .ok document) (hsame : Document.SameCitations value value') :
    ∃ document', Document.ofJson value' = .ok document' ∧
      ∀ {σ : Type} (engine : Engine σ) (store : Store) (format : String) (s : σ),
        Indistinguishable (Step.runFrom (resolve engine store format document) s)
          (Step.runFrom (resolve engine store format document') s) := by
  obtain ⟨others, items, items', hcitations, hitems, hread⟩ :=
    Document.exists_ofJson_of_sameCitations h hsame
  refine ⟨_, hread, fun engine store format s ↦ ?_⟩
  rw [resolve_recited engine store format document hcitations, Step.runFrom_map]
  refine ⟨?_, rfl⟩
  rcases hrun : Step.runFrom (resolve engine store format document) s with ⟨e | result, s'⟩
  · rfl
  · -- the result has the object of the document, and its blocks are written over those in there
    obtain ⟨-, -, -, -, blocks, -, -, -, -, rfl⟩ := exists_stages hrun
    exact congrArg (fun value ↦ Except.ok value.text)
      (Document.toJson_put_blocks { document with blocks } hitems _)

/-- One cite node has a prefix, the other one falls back on a heading with a cite node inside. -/
theorem only_citations_are_seen_sample :
    let citing (rest : List (String × Json)) (fallback : List Json) : Json :=
      .obj [("t", .str "Cite"),
        ("c", .arr [.arr [.obj (("citationId", .str "a") :: rest)], .arr fallback])]
    let paragraph (cite : Json) : Json := .obj [("t", .str "Para"), ("c", .arr [cite])]
    let heading (inline : Json) : Json :=
      .obj [("t", .str "Header"), ("c", .arr [.null, .null, .arr [inline]])]
    let value : Json := .obj [("blocks",
      .arr [paragraph (citing [("citationPrefix", .arr [.str "see"])] [])])]
    let value' : Json := .obj [("blocks", .arr [paragraph (citing [] [heading (citing [] [])])])]
    ∃ document document', Document.ofJson value = .ok document ∧
      Document.ofJson value' = .ok document' ∧
      (Step.runFrom (resolve Engine.echo Store.sample "html" document') ()).1.map Document.toText
        = (Step.runFrom (resolve Engine.echo Store.sample "html" document) ()).1.map
            Document.toText := by
  intro citing paragraph heading value value'
  have hcites : Json.SameCitations (citing [("citationPrefix", .arr [.str "see"])] [])
      (citing [] [heading (citing [] [])]) := .cite rfl rfl rfl rfl rfl
  have hparagraphs : Json.SameCitations
      (paragraph (citing [("citationPrefix", .arr [.str "see"])] []))
      (paragraph (citing [] [heading (citing [] [])])) :=
    .object rfl rfl (.cons (.refl _) (.cons (.array (.cons hcites .nil)) .nil))
  have hsame : Document.SameCitations value value' := .blocks rfl (.cons hparagraphs .nil)
  have hread : Document.ofJson value = .ok _ := rfl
  obtain ⟨document', hread', halike⟩ := only_citations_are_seen hread hsame
  exact ⟨_, document', hread, hread', (halike Engine.echo Store.sample "html" ()).text⟩

end Resolution

end CitationFilter
