import CitationFilter.Proofs.Document.Frame
import CitationFilter.Proofs.Document.Outline

/-!
# Documents with the same citations

Of a cite node only the citations are read. Two values are the same but for the rest of their cite
nodes if they can be gone through in step: `Json.SameCitations`. Where the reader comes to a cite
node in one of them, it comes to one in the other, and the two nodes have the same citations but may
differ in everything else, also in the cite nodes and headers that they have inside. Everywhere else
the two values are equal, and so are the parts that the reader does not enter.

If one of the values is read then so is the other one, into the same tree with other cite nodes in
the places of those (`Node.readsRecited`). The object around a cite node cannot be read in another
way, because from outside the two cite nodes look alike.
-/

namespace CitationFilter

/-! ## Values -/

/-- The two values are the same but for what is in their cite nodes besides the citations. -/
inductive Json.SameCitations : Json → Json → Prop
  | refl (value : Json) : SameCitations value value
  | cite {fields fields' : List (String × Json)} {c c' : Cite} :
      Node.form fields = .cite → Node.form fields' = .cite →
      Cite.ofJson (.obj fields) = .ok c → Cite.ofJson (.obj fields') = .ok c' →
      c'.citations = c.citations → SameCitations (.obj fields) (.obj fields')
  | header {fields : List (String × Json)} {level attributes : Json}
      {inlines inlines' : List Json} : Node.form fields = .header level attributes inlines →
      List.Forall₂ SameCitations inlines inlines' →
      SameCitations (.obj fields) (.obj (put "c" (.arr [level, attributes, .arr inlines']) fields))
  | object {fields fields' : List (String × Json)} : Node.form fields = .object →
      keys fields' = keys fields →
      List.Forall₂ SameCitations (fields.map Prod.snd) (fields'.map Prod.snd) →
      SameCitations (.obj fields) (.obj fields')
  | array {items items' : List Json} : List.Forall₂ SameCitations items items' →
      SameCitations (.arr items) (.arr items')

namespace Json

theorem SameCitations.kind_eq {value value' : Json} (h : SameCitations value value') :
    value.kind = value'.kind := by
  cases h <;> rfl

theorem map_kind_eq {items items' : List Json} (h : List.Forall₂ SameCitations items items') :
    items.map kind = items'.map kind := by
  induction h with
  | nil => rfl
  | cons hitem _ ih => rw [List.map_cons, List.map_cons, hitem.kind_eq, ih]

theorem SameCitations.outline_eq {value value' : Json} (h : SameCitations value value') :
    value.outline = value'.outline := by
  cases h with
  | refl => rfl
  | cite => rfl
  | header => rfl
  | object => rfl
  | array hitems => exact congrArg (Prod.mk _) (map_kind_eq hitems)

theorem forall₂_of_keys_eq {R : Json → Json → Prop} {fields fields' : List (String × Json)}
    (hkeys : keys fields' = keys fields)
    (h : List.Forall₂ R (fields.map Prod.snd) (fields'.map Prod.snd)) :
    List.Forall₂ (fun field field' ↦ field.1 = field'.1 ∧ R field.2 field'.2) fields fields' := by
  induction fields generalizing fields' with
  | nil =>
    rw [List.map_eq_nil_iff.mp hkeys]
    exact .nil
  | cons field rest ih =>
    obtain ⟨field', rest', rfl, hfirst, hrest⟩ := List.map_eq_cons_iff.mp hkeys
    rw [List.map_cons, List.map_cons, List.forall₂_cons] at h
    exact .cons ⟨hfirst.symm, h.1⟩ (ih hrest h.2)

end Json

/-! ## Trees -/

namespace Node

open Json (SameCitations)

/-! ## Other cite nodes in the same places -/

/-- What is for a part of a tree and for the rest of it can be told apart. -/
theorem exists_shares {α : Type} {as : List α} {m n : Nat} (h : as.length = m + n) :
    ∃ first rest, as = first ++ rest ∧ first.length = m ∧ rest.length = n := by
  refine ⟨as.take m, as.drop m, (List.take_append_drop m as).symm, ?_, ?_⟩
  · rw [List.length_take]
    omega
  · rw [List.length_drop]
    omega

theorem listFilled_cons_map_cite (node : Node) (rest : List Node) {first : List Cite}
    (more : List Cite) (h : first.length = node.cites.length) :
    listFilled (node :: rest) ((first ++ more).map .cite)
      = node.filled (first.map .cite) :: listFilled rest (more.map .cite) := by
  rw [List.map_append]
  exact listFilled_cons_append node rest _ (by rwa [List.length_map])

theorem fieldFilled_cons_map_cite (key : String) (node : Node) (rest : List (String × Node))
    {first : List Cite} (more : List Cite) (h : first.length = node.cites.length) :
    fieldFilled ((key, node) :: rest) ((first ++ more).map .cite)
      = (key, node.filled (first.map .cite)) :: fieldFilled rest (more.map .cite) := by
  rw [List.map_append]
  exact fieldFilled_cons_append key node rest _ (by rwa [List.length_map])

mutual

theorem cites_filled (node : Node) {others : List Cite} (h : others.length = node.cites.length) :
    (node.filled (others.map .cite)).cites = others := by
  cases node with
  | cite c =>
    obtain ⟨other, rfl⟩ := List.length_eq_one_iff.mp h
    rfl
  | header level attributes inlines => exact listCites_listFilled inlines h
  | object fields => exact fieldCites_fieldFilled fields h
  | array items => exact listCites_listFilled items h
  | leaf value => exact (List.eq_nil_of_length_eq_zero h).symm

theorem listCites_listFilled (list : List Node) {others : List Cite}
    (h : others.length = (listCites list).length) :
    listCites (listFilled list (others.map .cite)) = others := by
  cases list with
  | nil => exact (List.eq_nil_of_length_eq_zero h).symm
  | cons node rest =>
    rw [listCites, List.length_append] at h
    obtain ⟨first, more, rfl, hfirst, hmore⟩ := exists_shares h
    rw [listFilled_cons_map_cite node rest more hfirst, listCites, cites_filled node hfirst,
      listCites_listFilled rest hmore]

theorem fieldCites_fieldFilled (fields : List (String × Node)) {others : List Cite}
    (h : others.length = (fieldCites fields).length) :
    fieldCites (fieldFilled fields (others.map .cite)) = others := by
  match fields with
  | [] => exact (List.eq_nil_of_length_eq_zero h).symm
  | (key, node) :: rest =>
    rw [fieldCites, List.length_append] at h
    obtain ⟨first, more, rfl, hfirst, hmore⟩ := exists_shares h
    rw [fieldFilled_cons_map_cite key node rest more hfirst, fieldCites, cites_filled node hfirst,
      fieldCites_fieldFilled rest hmore]

end

mutual

theorem filled_filled (node : Node) {others : List Cite} {nodes : List Node}
    (h : others.length = node.cites.length) (hnodes : nodes.length = node.cites.length) :
    (node.filled (others.map .cite)).filled nodes = node.filled nodes := by
  cases node with
  | cite c =>
    obtain ⟨other, rfl⟩ := List.length_eq_one_iff.mp h
    obtain ⟨node, rfl⟩ := List.length_eq_one_iff.mp hnodes
    rfl
  | header level attributes inlines =>
    exact congrArg (header level attributes) (listFilled_listFilled inlines h hnodes)
  | object fields => exact congrArg object (fieldFilled_fieldFilled fields h hnodes)
  | array items => exact congrArg array (listFilled_listFilled items h hnodes)
  | leaf value => rfl

theorem listFilled_listFilled (list : List Node) {others : List Cite} {nodes : List Node}
    (h : others.length = (listCites list).length)
    (hnodes : nodes.length = (listCites list).length) :
    listFilled (listFilled list (others.map .cite)) nodes = listFilled list nodes := by
  cases list with
  | nil => rfl
  | cons node rest =>
    rw [listCites, List.length_append] at h hnodes
    obtain ⟨first, more, rfl, hfirst, hmore⟩ := exists_shares h
    obtain ⟨firstNodes, moreNodes, rfl, hfirstNodes, hmoreNodes⟩ := exists_shares hnodes
    have hshare : firstNodes.length = (node.filled (first.map .cite)).cites.length := by
      rw [cites_filled node hfirst, hfirst, hfirstNodes]
    rw [listFilled_cons_map_cite node rest more hfirst, listFilled_cons_append _ _ _ hshare,
      listFilled_cons_append node rest _ hfirstNodes, filled_filled node hfirst hfirstNodes,
      listFilled_listFilled rest hmore hmoreNodes]

theorem fieldFilled_fieldFilled (fields : List (String × Node)) {others : List Cite}
    {nodes : List Node} (h : others.length = (fieldCites fields).length)
    (hnodes : nodes.length = (fieldCites fields).length) :
    fieldFilled (fieldFilled fields (others.map .cite)) nodes = fieldFilled fields nodes := by
  match fields with
  | [] => rfl
  | (key, node) :: rest =>
    rw [fieldCites, List.length_append] at h hnodes
    obtain ⟨first, more, rfl, hfirst, hmore⟩ := exists_shares h
    obtain ⟨firstNodes, moreNodes, rfl, hfirstNodes, hmoreNodes⟩ := exists_shares hnodes
    have hshare : firstNodes.length = (node.filled (first.map .cite)).cites.length := by
      rw [cites_filled node hfirst, hfirst, hfirstNodes]
    rw [fieldFilled_cons_map_cite key node rest more hfirst,
      fieldFilled_cons_append key _ _ _ hshare,
      fieldFilled_cons_append key node rest _ hfirstNodes, filled_filled node hfirst hfirstNodes,
      fieldFilled_fieldFilled rest hmore hmoreNodes]

end

/-! ## Reading -/

/-- The value is read as the tree with other cite nodes, which have the same citations. -/
def ReadsRecited (value : Json) (node : Node) : Prop :=
  ∃ others : List Cite, others.map Cite.citations = node.cites.map Cite.citations ∧
    ofJson value = .ok (node.filled (others.map .cite))

theorem Reads.readsRecited {value : Json} {node : Node} (h : Reads value node) :
    ReadsRecited value node :=
  ⟨node.cites, rfl, by rw [filled_map_cite, h.ofJson_eq]⟩

theorem length_eq_of_map_citations {others cites : List Cite}
    (h : others.map Cite.citations = cites.map Cite.citations) : others.length = cites.length := by
  simpa using congrArg List.length h

/-- The header with other inlines is read as a header with these inlines. -/
theorem form_put_contents {fields : List (String × Json)} {level attributes : Json}
    {inlines : List Json} (h : form fields = .header level attributes inlines)
    (inlines' : List Json) :
    form (Json.put "c" (.arr [level, attributes, .arr inlines']) fields)
      = .header level attributes inlines' := by
  have hshape := (form_eq_header h).1
  rw [shape] at hshape
  rw [form, shape, contents?, Json.lookup_put_self, Json.lookup_put_of_ne (by decide), hshape]
  rfl

theorem exists_listOfJson_recited {items items' : List Json} {list : List Node}
    (h : List.Forall₂ (fun item node ↦ ofJson item = .ok node ∧
      ∀ {item'}, SameCitations item item' → ReadsRecited item' node) items list)
    (hsame : List.Forall₂ SameCitations items items') :
    ∃ others : List Cite, others.map Cite.citations = (listCites list).map Cite.citations ∧
      listOfJson items' = .ok (listFilled list (others.map .cite)) := by
  induction h generalizing items' with
  | nil =>
    rw [List.forall₂_nil_left_iff.mp hsame]
    exact ⟨[], rfl, rfl⟩
  | @cons item node _ rest hitem _ ih =>
    obtain ⟨item', items', hfirst, hrest, rfl⟩ := List.forall₂_cons_left_iff.mp hsame
    obtain ⟨first, hcitations, hread⟩ := hitem.2 hfirst
    obtain ⟨others, hcitations', hreads⟩ := ih hrest
    refine ⟨first ++ others, ?_, ?_⟩
    · rw [List.map_append, listCites, List.map_append, hcitations, hcitations']
    · rw [listFilled_cons_map_cite node rest others (length_eq_of_map_citations hcitations),
        listOfJson, hread, hreads]
      rfl

theorem exists_fieldsOfJson_recited {fields fields' : List (String × Json)}
    {list : List (String × Node)}
    (h : List.Forall₂ (fun field node ↦ field.1 = node.1 ∧ ofJson field.2 = .ok node.2 ∧
      ∀ {value'}, SameCitations field.2 value' → ReadsRecited value' node.2) fields list)
    (hsame : List.Forall₂ (fun field field' ↦
      field.1 = field'.1 ∧ SameCitations field.2 field'.2) fields fields') :
    ∃ others : List Cite, others.map Cite.citations = (fieldCites list).map Cite.citations ∧
      fieldsOfJson fields' = .ok (fieldFilled list (others.map .cite)) := by
  induction h generalizing fields' with
  | nil =>
    rw [List.forall₂_nil_left_iff.mp hsame]
    exact ⟨[], rfl, rfl⟩
  | @cons field entry _ rest hfield _ ih =>
    obtain ⟨⟨key', value'⟩, fields', ⟨hkey, hfirst⟩, hrest, rfl⟩ :=
      List.forall₂_cons_left_iff.mp hsame
    obtain ⟨key, node⟩ := entry
    obtain ⟨first, hcitations, hread⟩ := hfield.2.2 hfirst
    obtain ⟨others, hcitations', hreads⟩ := ih hrest
    refine ⟨first ++ others, ?_, ?_⟩
    · rw [List.map_append, fieldCites, List.map_append, hcitations, hcitations']
    · obtain rfl : key = key' := hfield.1.symm.trans hkey
      rw [fieldFilled_cons_map_cite key node rest others (length_eq_of_map_citations hcitations),
        fieldsOfJson, hread, hreads]
      rfl

/-- A value with the same citations is read as the same tree with other cite nodes. -/
theorem readsRecited {value value' : Json} {node : Node} (h : ofJson value = .ok node)
    (hsame : SameCitations value value') : ReadsRecited value' node := by
  have hcases : ReadingCases fun value node ↦
      ∀ {value'}, SameCitations value value' → ReadsRecited value' node := by
    refine ⟨?_, ?_, ?_, ?_, ?_⟩
    · intro fields c hform hcite value' hsame
      cases hsame with
      | refl => exact (Reads.cite hform hcite).readsRecited
      | cite _ hform' hc hc' hcitations =>
        obtain rfl := Except.ok.inj (hcite.symm.trans hc)
        exact ⟨[_], congrArg (fun citations ↦ [citations]) hcitations,
          (Reads.cite hform' hc').ofJson_eq⟩
      | header hform' => cases hform.symm.trans hform'
      | object hform' => cases hform.symm.trans hform'
    · intro fields level attributes inlines nodes hform hnodes value' hsame
      cases hsame with
      | refl =>
        have hread := listOfJson_eq_ok_iff.mpr (hnodes.imp fun _ _ hnode ↦ hnode.1)
        exact (Reads.header hform hread).readsRecited
      | cite hform' => cases hform.symm.trans hform'
      | header hform' hinlines =>
        cases hform.symm.trans hform'
        obtain ⟨others, hcitations, hread⟩ := exists_listOfJson_recited hnodes hinlines
        exact ⟨others, hcitations, (Reads.header (form_put_contents hform _) hread).ofJson_eq⟩
      | object hform' => cases hform.symm.trans hform'
    · intro fields nodes hform hnodes value' hsame
      cases hsame with
      | refl =>
        have hread := fieldsOfJson_eq_ok_iff.mpr (hnodes.imp fun _ _ hnode ↦ ⟨hnode.1, hnode.2.1⟩)
        exact (Reads.object hform hread).readsRecited
      | cite hform' => cases hform.symm.trans hform'
      | header hform' => cases hform.symm.trans hform'
      | object _ hkeys hvalues =>
        have hfields := Json.forall₂_of_keys_eq hkeys hvalues
        -- the two objects look alike, so the second one has no form of its own either
        have halike : Alike fields _ := hfields.imp fun _ _ hfield ↦ ⟨hfield.1, hfield.2.outline_eq⟩
        obtain ⟨others, hcitations, hread⟩ := exists_fieldsOfJson_recited hnodes hfields
        exact ⟨others, hcitations, (Reads.object (halike.form_eq_object hform) hread).ofJson_eq⟩
    · intro items nodes hnodes value' hsame
      cases hsame with
      | refl =>
        have hread := listOfJson_eq_ok_iff.mpr (hnodes.imp fun _ _ hnode ↦ hnode.1)
        exact (Reads.array hread).readsRecited
      | array hitems =>
        obtain ⟨others, hcitations, hread⟩ := exists_listOfJson_recited hnodes hitems
        exact ⟨others, hcitations, (Reads.array hread).ofJson_eq⟩
    · intro value hleaf value' hsame
      cases hsame with
      | refl => exact (Reads.leaf hleaf).readsRecited
      | cite => exact hleaf.elim
      | header => exact hleaf.elim
      | object => exact hleaf.elim
      | array => exact hleaf.elim
  exact hcases.apply node h hsame

theorem exists_listOfJson_of_sameCitations {items items' : List Json} {list : List Node}
    (h : listOfJson items = .ok list) (hsame : List.Forall₂ SameCitations items items') :
    ∃ others : List Cite, others.map Cite.citations = (listCites list).map Cite.citations ∧
      listOfJson items' = .ok (listFilled list (others.map .cite)) :=
  exists_listOfJson_recited (forall₂_of_listOfJson h fun hread ↦ readsRecited hread) hsame

end Node

/-! ## Documents -/

namespace Document

/-- The two documents, as values, are the same but for what is in the cite nodes of their blocks
besides the citations. -/
inductive SameCitations : Json → Json → Prop
  | blocks {frame : List (String × Json)} {items items' : List Json} :
      frame.lookup "blocks" = some (.arr items) →
      List.Forall₂ Json.SameCitations items items' →
      SameCitations (.obj frame) (.obj (Json.put "blocks" (.arr items') frame))

/-- What was in the place of the blocks does not matter for what is written. -/
theorem toJson_put_blocks (document : Document) {old : Json}
    (h : document.frame.lookup "blocks" = some old) (new : Json) :
    toJson { document with frame := Json.put "blocks" new document.frame } = document.toJson := by
  rw [toJson, toJson]
  dsimp only
  rw [Json.put_put_comm h (by decide), Json.put_put]

/-- A document with the same citations is read as the same document with other cite nodes, which
have the same citations. -/
theorem exists_ofJson_of_sameCitations {value value' : Json} {document : Document}
    (h : ofJson value = .ok document) (hsame : SameCitations value value') :
    ∃ (others : List Cite) (items items' : List Json),
      others.map Cite.citations = (Node.listCites document.blocks).map Cite.citations ∧
      document.frame.lookup "blocks" = some (.arr items) ∧
      ofJson value' = .ok { document with
        blocks := Node.listFilled document.blocks (others.map .cite)
        frame := Json.put "blocks" (.arr items') document.frame } := by
  cases hsame with | @blocks frame items items' hitems hall
  obtain ⟨hmetadata, hblocks, rfl⟩ := ofJson_eq_ok h
  rw [blocksOf, hitems] at hblocks
  obtain ⟨others, hcitations, hread⟩ :=
    Node.exists_listOfJson_of_sameCitations (Except.mapError_eq_ok.mp hblocks) hall
  refine ⟨others, items, items', hcitations, hitems, ?_⟩
  have hmetadata' : metadataOf (Json.put "blocks" (.arr items') document.frame)
      = .ok document.metadata := by
    rw [← hmetadata, metadataOf, metadataOf, Json.lookup_put_of_ne (by decide)]
  rw [ofJson, hmetadata', blocksOf, Json.lookup_put_self]
  dsimp only
  rw [hread]
  rfl

end Document

end CitationFilter
