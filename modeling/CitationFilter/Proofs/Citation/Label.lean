import CitationFilter.Proofs.Citation.Places

/-!
# The format is only a label

What a resolution puts into a document carries the name of the format that it is for. Nothing else
depends on that name. `Insertions` is what is put in without it, and `Resolution.insertions` is a
resolution that stops short of putting it in, so it has no format to look at. A resolution for some
format is that one with the insertions put in under its name (`Resolution.resolve_eq_map`).

The heading for the bibliography is looked for after the cite nodes have been replaced. There the
name could have mattered, if the replacements had a text or were taken for a title; they have none,
so the heading is the one that was there before.
-/

namespace CitationFilter

/-! ## Values that are put in -/

/-- The value of an inline that hands a text to the writer of one format. -/
def Json.rawInline (format text : String) : Json :=
  .obj [("t", .str "RawInline"), ("c", .arr [.str format, .str text])]

/-- The value of a paragraph. -/
def Json.paragraph (inlines : List Json) : Json := .obj [("t", .str "Para"), ("c", .arr inlines)]

namespace Node

theorem toJson_rawInline (format text : String) :
    (rawInline format text).toJson = Json.rawInline format text := by
  simp [rawInline, Json.rawInline, toJson, fieldsToJson]

theorem toJson_paragraph (inlines : List Node) :
    (paragraph inlines).toJson = Json.paragraph (listToJson inlines) := by
  simp [paragraph, Json.paragraph, toJson, fieldsToJson]

theorem listToJson_listFilled (blocks nodes : List Node) :
    listToJson (listFilled blocks nodes) = valuesWith (nodes.map toJson) blocks := by
  refine listToJson_listFilled_congr blocks ?_
  rw [List.map_map, List.map_map]
  exact List.map_congr_left fun node _ ↦ rfl

end Node

/-! ## Insertions -/

/-- What a resolution puts into a document, apart from the format that it is marked with. -/
structure Insertions where
  /-- The running text for each cite node, in document order. -/
  texts : List String
  /-- The heading for the bibliography, by its index, with the running texts of the entries. -/
  bibliography : Option (Nat × List String)
deriving DecidableEq, Repr

namespace Insertions

/-- The blocks with the insertions under the name of a format. -/
def into (format : String) (insertions : Insertions) (blocks : List Node) : List Node :=
  let filled := Node.listFilled blocks (insertions.texts.map (Node.rawInline format))
  match insertions.bibliography with
  | none => filled
  | some (index, entries) =>
    let paragraphs := entries.map fun entry ↦ .paragraph [.rawInline format entry]
    Bibliography.insertAfter index paragraphs filled

/-- The values of the blocks with the values of the insertions: the name of the format stands in the
raw inlines that are put in, and everything else is a value of the blocks. -/
def values (format : String) (insertions : Insertions) (blocks : List Node) : List Json :=
  let filled := Node.valuesWith (insertions.texts.map (Json.rawInline format)) blocks
  match insertions.bibliography with
  | none => filled
  | some (index, entries) =>
    let paragraphs := entries.map fun entry ↦ .paragraph [.rawInline format entry]
    filled.take (index + 1) ++ paragraphs ++ filled.drop (index + 1)

theorem listToJson_into (format : String) (insertions : Insertions) (blocks : List Node) :
    Node.listToJson (insertions.into format blocks) = insertions.values format blocks := by
  have hfilled : Node.listToJson (Node.listFilled blocks (insertions.texts.map
      (Node.rawInline format)))
        = Node.valuesWith (insertions.texts.map (Json.rawInline format)) blocks := by
    rw [Node.listToJson_listFilled, List.map_map]
    exact congrArg (Node.valuesWith · blocks)
      (List.map_congr_left fun text _ ↦ Node.toJson_rawInline format text)
  have hparagraphs (entries : List String) :
      Node.listToJson (entries.map fun entry ↦ .paragraph [.rawInline format entry])
        = entries.map fun entry ↦ .paragraph [.rawInline format entry] := by
    rw [Node.listToJson_eq_map, List.map_map]
    refine List.map_congr_left fun entry _ ↦ ?_
    rw [Function.comp_apply, Node.toJson_paragraph, Node.listToJson, Node.listToJson,
      Node.toJson_rawInline]
  rw [into, values]
  rcases insertions.bibliography with _ | ⟨index, entries⟩
  · exact hfilled
  · dsimp only
    rw [Bibliography.listToJson_insertAfter, hfilled, hparagraphs]

/-- There is a text for each cite node, and the bibliography goes under the heading for it, if the
blocks have one. -/
structure Fit (insertions : Insertions) (blocks : List Node) : Prop where
  texts : insertions.texts.length = (Node.listCites blocks).length
  bibliography : insertions.bibliography.map Prod.fst = Bibliography.headingIndex? blocks

/-- A raw inline that was there before keeps its format. -/
example :
    values "latex" ⟨["Lee"], none⟩ [.rawInline "html" "<hr>", .cite ⟨[], .null⟩]
      = [.rawInline "html" "<hr>", .rawInline "latex" "Lee"] := by
  rfl

end Insertions

/-! ## Resolutions without a format -/

variable {σ : Type}

/-- Asks for the bibliography, if there is a heading for it, and makes running text of it. -/
def Bibliography.entries (engine : Engine σ) (blocks : List Node) :
    Step σ (Option (Nat × List String)) :=
  match headingIndex? blocks with
  | none => return none
  | some index => do
    let entries ← engine.makeBibliography
    return some (index, entries.map Markup.normalize)

theorem Bibliography.map_fst_of_entries {engine : Engine σ} {blocks : List Node} {s s' : σ}
    {found : Option (Nat × List String)}
    (h : Step.runFrom (entries engine blocks) s = (.ok found, s')) :
    found.map Prod.fst = headingIndex? blocks := by
  rw [entries] at h
  cases hindex : headingIndex? blocks with
  | none =>
    rw [hindex] at h
    cases h
    rfl
  | some index =>
    rw [hindex] at h
    obtain ⟨_, _, -, h⟩ := Step.runFrom_bind_eq_ok.mp h
    cases h
    rfl

/-- The bibliography that is inserted under a name is the one that is made without it. -/
theorem Bibliography.insert_placed_eq_map (engine : Engine σ) (format : String)
    (texts : List String) (blocks : List Node) :
    Prod.fst <$> insert engine format (Placement.placed format texts blocks)
      = (fun bibliography ↦ Insertions.into format
          ⟨((Placement.sizes blocks).splitLengths texts).map Placement.joined, bibliography⟩ blocks)
        <$> entries engine blocks := by
  have hplaced : Placement.placed format texts blocks
      = Node.listFilled blocks ((((Placement.sizes blocks).splitLengths texts).map
          Placement.joined).map (Node.rawInline format)) := by
    rw [Placement.placed, List.map_map]
    rfl
  have hparagraph : paragraph format
      = (fun text ↦ .paragraph [.rawInline format text]) ∘ Markup.normalize := rfl
  rw [insert, entries, headingIndex?_placed, hplaced]
  cases headingIndex? blocks with
  | none => simp [Insertions.into]
  | some index => simp [Insertions.into, hparagraph]

namespace Resolution

/-- A resolution up to the point where something is put into the document. -/
def insertions (engine : Engine σ) (store : Store) (document : Document) : Step σ Insertions := do
  let uncited ← uncitedIds document store
  register engine store uncited
  let clusters ← Cluster.build store (Occurrence.extract document.blocks)
  let texts ← Cluster.formatAll engine clusters
  let bibliography ← Bibliography.entries engine document.blocks
  return ⟨((Placement.sizes document.blocks).splitLengths texts).map Placement.joined, bibliography⟩

/-- The name of the format comes in at the very end. -/
theorem resolve_eq_map (engine : Engine σ) (store : Store) (format : String)
    (document : Document) :
    resolve engine store format document
      = (fun insertions ↦ { document with blocks := insertions.into format document.blocks })
          <$> insertions engine store document := by
  rw [resolve_eq, insertions]
  simp only [map_bind]
  refine bind_congr fun uncited ↦ bind_congr fun _ ↦ bind_congr fun clusters ↦
    bind_congr fun texts ↦ ?_
  -- both sides put the same blocks into the document
  have hblocks := congrArg (fun blocks : Step σ (List Node) ↦
      (fun blocks ↦ { document with blocks }) <$> blocks)
    (Bibliography.insert_placed_eq_map engine format texts document.blocks)
  rw [Functor.map_map, Functor.map_map, map_eq_pure_bind, map_eq_pure_bind] at hblocks
  simp only [map_pure]
  exact hblocks

theorem fit_of_insertions {engine : Engine σ} {store : Store} {document : Document} {s s' : σ}
    {found : Insertions}
    (h : Step.runFrom (insertions engine store document) s = (.ok found, s')) :
    found.Fit document.blocks := by
  obtain ⟨_, _, -, h⟩ := Step.runFrom_bind_eq_ok.mp h
  obtain ⟨_, _, -, h⟩ := Step.runFrom_bind_eq_ok.mp h
  obtain ⟨_, _, -, h⟩ := Step.runFrom_bind_eq_ok.mp h
  obtain ⟨_, _, -, h⟩ := Step.runFrom_bind_eq_ok.mp h
  obtain ⟨bibliography, _, hentries, h⟩ := Step.runFrom_bind_eq_ok.mp h
  cases h
  constructor
  · rw [List.length_map, List.length_splitLengths, Placement.sizes, List.length_map]
  · exact Bibliography.map_fst_of_entries hentries

/-- **The format is only a label.** From any state of any engine, a resolution fails with the same
error whatever the format is, or it succeeds whatever the format is, and it leaves the same state.
In a conversation the state is what has been sent and what is unread. If it succeeds there are
insertions, which do not depend on the format, and the results are the document with the insertions
under the name of the format: a raw inline in the place of each cite node and of each entry of the
bibliography, and nothing else that was not in the document before. -/
theorem format_is_only_a_label (engine : Engine σ) (store : Store) (document : Document) (s : σ) :
    (∃ e s', ∀ format, Step.runFrom (resolve engine store format document) s = (.error e, s')) ∨
    ∃ (insertions : Insertions) (s' : σ), insertions.Fit document.blocks ∧ ∀ format,
      ∃ result, Step.runFrom (resolve engine store format document) s = (.ok result, s') ∧
        result = { document with blocks := insertions.into format document.blocks } ∧
        result.toJson = .obj (Json.put "blocks"
          (.arr (insertions.values format document.blocks))
          (Json.put "meta" (.obj document.metadata.fields) document.frame)) := by
  rcases hrun : Step.runFrom (insertions engine store document) s with ⟨e | found, s'⟩
  · refine Or.inl ⟨e, s', fun format ↦ ?_⟩
    rw [resolve_eq_map, Step.runFrom_map, hrun]
    rfl
  · refine Or.inr ⟨found, s', fit_of_insertions hrun, fun format ↦ ⟨_, ?_, rfl, ?_⟩⟩
    · rw [resolve_eq_map, Step.runFrom_map, hrun]
      rfl
    · rw [Document.toJson]
      dsimp only
      rw [Insertions.listToJson_into]

end Resolution

end CitationFilter
