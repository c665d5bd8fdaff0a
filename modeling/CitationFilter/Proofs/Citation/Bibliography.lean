import CitationFilter.Citation.Bibliography
import CitationFilter.Citation.Occurrence
import CitationFilter.Engine.Conversation
import CitationFilter.Proofs.Step

/-!
# The bibliography goes under its heading

Only a block at the top can be the heading for the bibliography, and the first one counts. Without
one the engine is left alone; with one, the paragraphs of its entries come right behind it and
everything else stays where it is. The heading is then still the first one, and no citation has
come or gone.

Blocks can be handed over and handed back, as `Bibliography.insert` does, or they can be changed in
place, as `Bibliography.insertInPlace` does with blocks that are part of the state. The second form
is the one in which it means something that a failure leaves the blocks alone. `Leaves` says how an
insertion ends in both forms.
-/

namespace CitationFilter

variable {σ : Type}

/-- A step made beside something that it does not touch. -/
def Step.beside {α τ : Type} (p : Step σ α) : Step (σ × τ) α :=
  ExceptT.mk fun (s, t) ↦
    let (result, s') := runFrom p s
    (result, s', t)

namespace Bibliography

open Step (runFrom)

/-! ## The heading -/

/-- The block is a header with one of the known titles. -/
def IsTitled (block : Node) : Prop :=
  ∃ level attributes inlines, block = .header level attributes inlines ∧
    Node.listText inlines ∈ titles

theorem isHeading_iff {block : Node} : isHeading block = true ↔ IsTitled block := by
  cases block with
  | header level attributes inlines =>
    have hself : IsTitled (.header level attributes inlines) ↔ Node.listText inlines ∈ titles := by
      constructor
      · rintro ⟨_, _, _, ⟨⟩, h⟩
        exact h
      · intro h
        exact ⟨level, attributes, inlines, rfl, h⟩
    rw [hself, isHeading, Node.title?]
    exact List.contains_iff_mem
  | _ => exact iff_of_false Bool.false_ne_true (by rintro ⟨_, _, _, ⟨⟩, -⟩)

theorem isHeading_eq_false_iff {block : Node} : isHeading block = false ↔ ¬IsTitled block := by
  rw [← isHeading_iff, Bool.not_eq_true]

theorem headingIndex?_of_forall {blocks : List Node} (h : ∀ block ∈ blocks, ¬IsTitled block) :
    headingIndex? blocks = none := by
  rw [headingIndex?, List.findIdx?_eq_none_iff]
  intro block hblock
  exact isHeading_eq_false_iff.mpr (h block hblock)

section Heading

variable {before after : List Node} {heading : Node}

theorem headingIndex?_append_cons (hbefore : ∀ block ∈ before, ¬IsTitled block)
    (hheading : IsTitled heading) (after : List Node) :
    headingIndex? (before ++ heading :: after) = some before.length := by
  have hnone : before.findIdx? isHeading = none := headingIndex?_of_forall hbefore
  rw [headingIndex?, List.findIdx?_append, hnone, List.findIdx?_cons,
    isHeading_iff.mpr hheading]
  simp

theorem insertAfter_length (before inserted after : List Node) (heading : Node) :
    insertAfter before.length inserted (before ++ heading :: after)
      = before ++ heading :: (inserted ++ after) := by
  have hsplit : before ++ heading :: after = (before ++ [heading]) ++ after :=
    List.append_cons before heading after
  have hlength : before.length + 1 = (before ++ [heading]).length := by
    rw [List.length_append, List.length_singleton]
  rw [insertAfter, hsplit, hlength, List.take_left, List.drop_left]
  simp

end Heading

/-! ## Citations -/

theorem listCites_append (list more : List Node) :
    Node.listCites (list ++ more) = Node.listCites list ++ Node.listCites more := by
  induction list with
  | nil => rfl
  | cons node rest ih =>
    rw [List.cons_append, Node.listCites, Node.listCites, ih, List.append_assoc]

theorem listCites_paragraphs (format : String) (entries : List String) :
    Node.listCites (entries.map (paragraph format)) = [] := by
  induction entries with
  | nil => rfl
  | cons entry rest ih =>
    rw [List.map_cons, Node.listCites, ih, List.append_nil]
    rfl

/-- The paragraphs of the bibliography cite nothing, wherever they are put. -/
theorem extract_paragraphs (format : String) (entries : List String) (before after : List Node) :
    Occurrence.extract (before ++ (entries.map (paragraph format) ++ after))
      = Occurrence.extract (before ++ after) := by
  rw [Occurrence.extract, Occurrence.extract, listCites_append, listCites_append,
    listCites_paragraphs, List.nil_append, listCites_append]

/-! ## Inserting in place -/

/-- Asks for the bibliography and inserts it into the blocks that are part of the state; gives the
number of entries. -/
def insertInPlace (engine : Engine σ) (format : String) : Step (σ × List Node) Nat := do
  let (_, blocks) ← get
  match headingIndex? blocks with
  | none => return 0
  | some index => do
    let entries ← engine.makeBibliography.beside
    modify fun (s, blocks) ↦ (s, insertAfter index (entries.map (paragraph format)) blocks)
    return entries.length

/-- The insertion of the bibliography into the blocks from a state ends with a result and leaves a
state and blocks, also when the blocks are changed in place. -/
structure Leaves (engine : Engine σ) (format : String) (blocks : List Node) (s : σ)
    (result : Except Error Nat) (s' : σ) (blocks' : List Node) : Prop where
  handedBack : runFrom (insert engine format blocks) s = (result.map fun n ↦ (blocks', n), s')
  inPlace : runFrom (insertInPlace engine format) (s, blocks) = (result, s', blocks')

variable {engine : Engine σ} {format : String} {blocks : List Node} {s s' : σ}

theorem runFrom_insertInPlace (engine : Engine σ) (format : String) (blocks : List Node) (s : σ) :
    runFrom (insertInPlace engine format) (s, blocks) =
      match headingIndex? blocks with
      | none => (.ok 0, s, blocks)
      | some index =>
        match runFrom engine.makeBibliography s with
        | (.ok entries, s') =>
          (.ok entries.length, s', insertAfter index (entries.map (paragraph format)) blocks)
        | (.error e, s') => (.error e, s', blocks) := by
  have hget : runFrom (get : Step (σ × List Node) _) (s, blocks) = (.ok (s, blocks), s, blocks) :=
    rfl
  rw [insertInPlace, Step.runFrom_bind_of_ok hget]
  dsimp only
  cases headingIndex? blocks with
  | none => rfl
  | some index =>
    dsimp only
    rw [Step.runFrom_bind, Step.beside, Step.runFrom_mk]
    dsimp only
    rcases runFrom engine.makeBibliography s with ⟨e | entries, s'⟩
    · rfl
    · rfl

theorem leaves_of_none (engine : Engine σ) (format : String) (s : σ)
    (h : headingIndex? blocks = none) : Leaves engine format blocks s (.ok 0) s blocks := by
  constructor
  · rw [insert, h]
    rfl
  · rw [runFrom_insertInPlace, h]

theorem leaves_of_error {index : Nat} {e : Error} (h : headingIndex? blocks = some index)
    (hentries : runFrom engine.makeBibliography s = (.error e, s')) :
    Leaves engine format blocks s (.error e) s' blocks := by
  constructor
  · rw [insert, h]
    exact Step.runFrom_bind_of_error hentries
  · rw [runFrom_insertInPlace, h, hentries]

theorem leaves_of_ok (format : String) {index : Nat} {entries : List String}
    (h : headingIndex? blocks = some index)
    (hentries : runFrom engine.makeBibliography s = (.ok entries, s')) :
    Leaves engine format blocks s (.ok entries.length) s'
      (insertAfter index (entries.map (paragraph format)) blocks) := by
  constructor
  · rw [insert, h]
    exact Step.runFrom_bind_of_ok hentries
  · rw [runFrom_insertInPlace, h, hentries]

/-- The engine of a conversation may say that there is no bibliography, which is one without
entries. -/
theorem makeBibliography_of_false {store : Store} {c c' : Conversation}
    (h : runFrom (Conversation.call store .makeBibliography) c = (.ok (.bool false), c')) :
    runFrom (Conversation.engine store).makeBibliography c = (.ok [], c') :=
  Step.runFrom_bind_of_ok h

/-- **The bibliography goes under its heading.** Without a header with a known title among the
blocks at the top, nothing is asked and nothing is changed. If there is one, the first one counts.
If the engine fails then, the insertion fails with its error and leaves the blocks alone. If it
gives some entries, the insertion gives their number, and behind the heading there is a paragraph
with the running text of each of them, in order; the heading is where it was and is still the first,
and the blocks cite what they cited before. The engine of a conversation that answers false has no
entries, so it changes nothing. -/
theorem bibliography_under_first_heading (engine : Engine σ) (format : String)
    (blocks : List Node) (s : σ) :
    ((∀ block ∈ blocks, ¬IsTitled block) →
      headingIndex? blocks = none ∧ Leaves engine format blocks s (.ok 0) s blocks) ∧
    ∀ before heading after, blocks = before ++ heading :: after →
      (∀ block ∈ before, ¬IsTitled block) → IsTitled heading →
      headingIndex? blocks = some before.length ∧
      (∀ e s', runFrom engine.makeBibliography s = (.error e, s') →
        Leaves engine format blocks s (.error e) s' blocks) ∧
      (∀ entries s', runFrom engine.makeBibliography s = (.ok entries, s') →
        let paragraphs := entries.map fun entry ↦
          Node.paragraph [.rawInline format (Markup.normalize entry)]
        let blocks' := before ++ heading :: (paragraphs ++ after)
        Leaves engine format blocks s (.ok entries.length) s' blocks' ∧
          headingIndex? blocks' = some before.length ∧
          Occurrence.extract blocks' = Occurrence.extract blocks) ∧
      ∀ (store : Store) (c c' : Conversation),
        runFrom (Conversation.call store .makeBibliography) c = (.ok (.bool false), c') →
        Leaves (Conversation.engine store) format blocks c (.ok 0) c' blocks := by
  constructor
  · intro hnone
    have hindex := headingIndex?_of_forall hnone
    exact ⟨hindex, leaves_of_none engine format s hindex⟩
  · rintro before heading after rfl hbefore hheading
    have hindex := headingIndex?_append_cons hbefore hheading after
    refine ⟨hindex, fun e s' hentries ↦ leaves_of_error hindex hentries, ?_, ?_⟩
    · intro entries s' hentries
      have hleaves := leaves_of_ok format hindex hentries
      rw [insertAfter_length] at hleaves
      refine ⟨hleaves, headingIndex?_append_cons hbefore hheading _, ?_⟩
      have hcites := extract_paragraphs format entries (before ++ [heading]) after
      rw [List.append_assoc, List.append_assoc] at hcites
      exact hcites
    · intro store c c' hfalse
      have hleaves := leaves_of_ok format hindex (makeBibliography_of_false hfalse)
      rw [insertAfter_length] at hleaves
      exact hleaves

/-- An engine that lists two entries when it is asked for the first time, and fails after that. Its
state is the number of times. -/
def listingOnce : Engine Nat where
  setOutputFormat _ := pure ()
  updateItems _ := pure ()
  updateUncitedItems _ := pure ()
  processCluster _ _ _ := pure ⟨true, []⟩
  makeBibliography := do
    let asked ← get
    set (asked + 1)
    if asked = 0 then return ["Lee", "Smith &amp; Co.\n"] else throw .engineClosed

/-- A heading inside another block is passed over, and of two others the first one counts. -/
theorem bibliography_under_first_heading_of_nested :
    let entry (text : String) : Node := .paragraph [.rawInline "html" text]
    let heading : Node := .header .null .null [.leaf .null, .object
      [("t", .leaf (.str "Str")), ("c", .leaf (.str "Bibliography"))]]
    let nested : Node := .array [heading, .cite ⟨[⟨"a", []⟩], .null⟩]
    Leaves listingOnce "html" [nested] 0 (.ok 0) 0 [nested] ∧
      Leaves listingOnce "html" [nested, heading, heading] 0 (.ok 2) 1
        [nested, heading, entry "Lee", entry "Smith & Co.", heading] ∧
      Leaves listingOnce "html" [nested, heading] 1 (.error .engineClosed) 2 [nested, heading] ∧
      Leaves (Conversation.engine ⟨[], []⟩) "html" [heading]
        ⟨[Bytes.ofText (Json.obj [("result", .bool false)]).text], ⟨[], none⟩⟩ (.ok 0)
        ⟨[], ⟨[Request.makeBibliography.toJson.text], none⟩⟩ [heading] := by
  intro entry heading nested
  have hheading : IsTitled heading := isHeading_iff.mp (by decide)
  have hnested : ∀ block ∈ [nested], ¬IsTitled block :=
    List.forall_mem_singleton.mpr (isHeading_eq_false_iff.mp rfl)
  have hnone := (bibliography_under_first_heading listingOnce "html" [nested] 0).1 hnested
  have hfirst := (bibliography_under_first_heading listingOnce "html"
    [nested, heading, heading] 0).2 [nested] heading [heading] rfl hnested hheading
  have hagain := (bibliography_under_first_heading listingOnce "html"
    [nested, heading] 1).2 [nested] heading [] rfl hnested hheading
  have honly := (bibliography_under_first_heading listingOnce "html"
    [heading] 0).2 [] heading [] rfl (List.forall_mem_nil _) hheading
  have hfalse : runFrom (Conversation.call ⟨[], []⟩ .makeBibliography)
      ⟨[Bytes.ofText (Json.obj [("result", .bool false)]).text], ⟨[], none⟩⟩
        = (.ok (.bool false), ⟨[], ⟨[Request.makeBibliography.toJson.text], none⟩⟩) := by
    rw [Conversation.call, Step.runFrom_mk]
    show Conversation.listen _ _ [_] _ = _
    rw [Conversation.listen, Bytes.toText?_ofText]
    rfl
  have hlee : Markup.normalize "Lee" = "Lee" := by decide +kernel
  have hsmith : Markup.normalize "Smith &amp; Co.\n" = "Smith & Co." := by decide +kernel
  refine ⟨hnone.2, ?_, hagain.2.1 _ _ rfl, honly.2.2.2 _ _ _ hfalse⟩
  have hleaves := (hfirst.2.2.1 _ _ rfl).1
  rw [List.map_cons, List.map_cons, hlee, hsmith] at hleaves
  exact hleaves

end Bibliography

end CitationFilter
