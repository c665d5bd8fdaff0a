import CitationFilter.Citation.Markup
import Mathlib.Data.List.Basic

/-!
# Where the tokens of the markup are

Every token begins with an angle bracket or an ampersand and has none of these further on. So a
token cannot begin inside of another one, and the tokens that stand in a text are apart from each
other. This is why it does not matter that a text is cut from left to right: the cut finds all
tokens that there are (`Markup.occurs_iff`), and a text that is split where no token stands is cut
in the same way on both sides (`Markup.pieces_append`).
-/

namespace CitationFilter

namespace Markup

/-! ## The table -/

/-- Whether a token may begin with the character. -/
def opens (c : Char) : Bool := c = '<' || c = '&'

/-- A token begins with a character that opens it and has no such character after that. -/
theorem exists_source_eq_cons {t : Markup} (ht : t ∈ table) :
    ∃ c rest, t.source = c :: rest ∧ opens c ∧ ∀ d ∈ rest, opens d = false := by
  have hall : ∀ t ∈ table,
      t.source.head?.any opens ∧ t.source.tail.all fun d ↦ !opens d := by
    decide +kernel
  obtain ⟨hhead, htail⟩ := hall t ht
  cases hsource : t.source with
  | nil =>
    rw [hsource] at hhead
    cases hhead
  | cons c rest =>
    rw [hsource] at hhead htail
    exact ⟨c, rest, rfl, hhead, by simpa using htail⟩

theorem length_source_pos {t : Markup} (ht : t ∈ table) : 0 < t.source.length := by
  obtain ⟨c, rest, hsource, -⟩ := exists_source_eq_cons ht
  rw [hsource]
  exact Nat.succ_pos _

theorem source_unique : ∀ t ∈ table, ∀ u ∈ table, t.source <+: u.source → t = u := by
  decide +kernel

/-! ## Occurrences -/

/-- The token stands in the text behind that many characters. -/
structure Occurs (cs : List Char) (i : Nat) (t : Markup) : Prop where
  mem_table : t ∈ table
  begins : t.source <+: cs.drop i

theorem occurs_of_at?_eq_some {cs : List Char} {t : Markup} (h : at? cs = some t) :
    Occurs cs 0 t := by
  rw [at?] at h
  have hbegins := List.find?_some h
  exact ⟨List.mem_of_find?_eq_some h, List.isPrefixOf_iff_prefix.mp hbegins⟩

theorem at?_eq_some_iff {cs : List Char} {t : Markup} : at? cs = some t ↔ Occurs cs 0 t := by
  constructor
  · exact occurs_of_at?_eq_some
  · rintro ⟨hmem, hbegins⟩
    -- whatever token is found, it is this one
    cases hfound : at? cs with
    | none =>
      refine absurd (List.isPrefixOf_iff_prefix.mpr hbegins) ?_
      exact List.find?_eq_none.mp hfound t hmem
    | some u =>
      obtain ⟨humem, hubegins⟩ := occurs_of_at?_eq_some hfound
      rcases List.prefix_or_prefix_of_prefix hubegins hbegins with h | h
      · rw [source_unique u humem t hmem h]
      · rw [source_unique t hmem u humem h]

theorem at?_eq_none_iff {cs : List Char} : at? cs = none ↔ ∀ t, ¬Occurs cs 0 t := by
  rw [Option.eq_none_iff_forall_ne_some]
  exact forall_congr' fun t ↦ not_congr at?_eq_some_iff

theorem Occurs.unique {cs : List Char} {i : Nat} {t u : Markup} (ht : Occurs cs i t)
    (hu : Occurs cs i u) : t = u := by
  have htat : at? (cs.drop i) = some t := at?_eq_some_iff.mpr ⟨ht.mem_table, ht.begins⟩
  have huat : at? (cs.drop i) = some u := at?_eq_some_iff.mpr ⟨hu.mem_table, hu.begins⟩
  exact Option.some_inj.mp (htat.symm.trans huat)

theorem occurs_append_iff (front : List Char) {cs : List Char} {i : Nat} {t : Markup} :
    Occurs (front ++ cs) (front.length + i) t ↔ Occurs cs i t := by
  have hdrop : (front ++ cs).drop (front.length + i) = cs.drop i := by
    rw [← List.drop_drop, List.drop_left]
  constructor
  · rintro ⟨hmem, hbegins⟩
    exact ⟨hmem, hdrop ▸ hbegins⟩
  · rintro ⟨hmem, hbegins⟩
    exact ⟨hmem, hdrop ▸ hbegins⟩

theorem Occurs.exists_opens {cs : List Char} {i : Nat} {t : Markup} (h : Occurs cs i t) :
    ∃ c, cs[i]? = some c ∧ opens c := by
  obtain ⟨c, rest, hsource, hopens, -⟩ := exists_source_eq_cons h.mem_table
  obtain ⟨after, hafter⟩ := h.begins
  refine ⟨c, ?_, hopens⟩
  rw [← Nat.add_zero i, ← List.getElem?_drop, ← hafter, hsource]
  rfl

theorem Occurs.opens_eq_false {cs : List Char} {i j : Nat} {t : Markup} (h : Occurs cs i t)
    (hi : i < j) (hj : j < i + t.source.length) : ∀ c ∈ cs[j]?, opens c = false := by
  obtain ⟨c, rest, hsource, -, hrest⟩ := exists_source_eq_cons h.mem_table
  obtain ⟨after, hafter⟩ := h.begins
  obtain ⟨k, rfl⟩ := Nat.exists_eq_add_of_lt hi
  rw [hsource, List.length_cons] at hj
  intro d hd
  rw [Nat.add_assoc, ← List.getElem?_drop, ← hafter, hsource, List.cons_append,
    List.getElem?_cons_succ, List.getElem?_append_left (by omega)] at hd
  exact hrest d (List.mem_of_getElem? hd)

/-- Of two tokens in a text the first one ends before the second one begins. -/
theorem Occurs.le_of_lt {cs : List Char} {i j : Nat} {t u : Markup} (ht : Occurs cs i t)
    (hu : Occurs cs j u) (hij : i < j) : i + t.source.length ≤ j := by
  by_contra hlt
  obtain ⟨c, hc, hopens⟩ := hu.exists_opens
  rw [ht.opens_eq_false hij (Nat.not_le.mp hlt) c hc] at hopens
  cases hopens

/-! ## Pieces -/

theorem piecesAfter_eq (skip : Nat) (cs : List Char) :
    piecesAfter skip cs = pieces (cs.drop skip) := by
  induction cs generalizing skip with
  | nil => rw [List.drop_nil, pieces, piecesAfter, piecesAfter]
  | cons c rest ih =>
    cases skip with
    | zero => rfl
    | succ k => rw [piecesAfter, ih, List.drop_succ_cons]

theorem pieces_source_append {t : Markup} (ht : t ∈ table) (rest : List Char) :
    pieces (t.source ++ rest) = .token t :: pieces rest := by
  have hat : at? (t.source ++ rest) = some t :=
    at?_eq_some_iff.mpr ⟨ht, List.prefix_append _ _⟩
  obtain ⟨c, tail, hsource, -⟩ := exists_source_eq_cons ht
  rw [hsource, List.cons_append] at hat ⊢
  rw [pieces, piecesAfter, hat]
  dsimp only
  rw [piecesAfter_eq, hsource, List.length_cons, Nat.add_sub_cancel, List.drop_left]

theorem pieces_cons_of_at?_eq_none {c : Char} {rest : List Char} (h : at? (c :: rest) = none) :
    pieces (c :: rest) = .char c :: pieces rest := by
  rw [pieces, piecesAfter, h]
  rfl

/-- A text is empty, or it begins with a token, or it begins with a character at which no token
stands; what holds of texts is shown along this cut. -/
@[elab_as_elim]
theorem cut_induction {motive : List Char → Prop} (nil : motive [])
    (token : ∀ t rest, t ∈ table → motive rest → motive (t.source ++ rest))
    (char : ∀ c rest, at? (c :: rest) = none → motive rest → motive (c :: rest))
    (cs : List Char) : motive cs := by
  induction hlength : cs.length using Nat.strongRecOn generalizing cs with
  | _ n ih =>
    subst hlength
    cases cs with
    | nil => exact nil
    | cons c rest =>
      cases hat : at? (c :: rest) with
      | none => exact char c rest hat (ih rest.length (Nat.lt_succ_self _) rest rfl)
      | some t =>
        obtain ⟨ht, after, hafter⟩ := at?_eq_some_iff.mp hat
        have hlt : after.length < (c :: rest).length := by
          have hpos := length_source_pos ht
          rw [← List.drop_zero (l := c :: rest), ← hafter, List.length_append]
          omega
        rw [← List.drop_zero (l := c :: rest), ← hafter]
        exact token t after ht (ih after.length hlt after rfl)

theorem flatMap_source_pieces (cs : List Char) : (pieces cs).flatMap Piece.source = cs := by
  induction cs using cut_induction with
  | nil => rfl
  | token t rest ht ih => rw [pieces_source_append ht, List.flatMap_cons, ih, Piece.source]
  | char c rest hat ih =>
    rw [pieces_cons_of_at?_eq_none hat, List.flatMap_cons, ih, Piece.source,
      List.singleton_append]

theorem not_occurs_nil (i : Nat) (t : Markup) : ¬Occurs [] i t := by
  intro h
  obtain ⟨c, hc, -⟩ := h.exists_opens
  cases hc

/-- A token that stands in a text with a token in front is that one or stands behind it. -/
theorem occurs_source_append_iff {u : Markup} (hu : u ∈ table) {rest : List Char} {i : Nat}
    {t : Markup} :
    Occurs (u.source ++ rest) i t ↔
      (u = t ∧ i = 0) ∨ ∃ k, u.source.length + k = i ∧ Occurs rest k t := by
  have hfirst : Occurs (u.source ++ rest) 0 u := ⟨hu, List.prefix_append _ _⟩
  constructor
  · intro h
    rcases Nat.eq_zero_or_pos i with rfl | hi
    · exact Or.inl ⟨hfirst.unique h, rfl⟩
    · obtain ⟨k, rfl⟩ := Nat.exists_eq_add_of_le (hfirst.le_of_lt h hi)
      rw [Nat.zero_add] at h ⊢
      exact Or.inr ⟨k, rfl, (occurs_append_iff u.source).mp h⟩
  · rintro (⟨rfl, rfl⟩ | ⟨k, rfl, h⟩)
    · exact hfirst
    · exact (occurs_append_iff u.source).mpr h

theorem occurs_cons_iff {c : Char} {rest : List Char} (hat : at? (c :: rest) = none) {i : Nat}
    {t : Markup} : Occurs (c :: rest) i t ↔ ∃ k, 1 + k = i ∧ Occurs rest k t := by
  constructor
  · intro h
    cases i with
    | zero => exact absurd h (at?_eq_none_iff.mp hat t)
    | succ k =>
      rw [Nat.add_comm] at h
      exact ⟨k, Nat.add_comm 1 k, (occurs_append_iff [c]).mp h⟩
  · rintro ⟨k, rfl, h⟩
    exact (occurs_append_iff [c]).mpr h

theorem exists_split_cons_iff {first : Piece} {cut : List Piece} {i : Nat} {t : Markup} :
    (∃ before after, first :: cut = before ++ .token t :: after ∧
        (before.flatMap Piece.source).length = i) ↔
      (first = .token t ∧ i = 0) ∨ ∃ k, first.source.length + k = i ∧
        ∃ before after, cut = before ++ .token t :: after ∧
          (before.flatMap Piece.source).length = k := by
  constructor
  · rintro ⟨before, after, hcut, rfl⟩
    rcases List.cons_eq_append_iff.mp hcut with ⟨rfl, hcons⟩ | ⟨before, rfl, hrest⟩
    · exact Or.inl ⟨(List.cons.inj hcons).1.symm, rfl⟩
    · exact Or.inr ⟨_, by rw [List.flatMap_cons, List.length_append],
        before, after, hrest, rfl⟩
  · rintro (⟨rfl, rfl⟩ | ⟨k, rfl, before, after, rfl, rfl⟩)
    · exact ⟨[], cut, rfl, rfl⟩
    · refine ⟨first :: before, after, rfl, ?_⟩
      rw [List.flatMap_cons, List.length_append]

/-- The cut finds exactly the tokens that stand in the text, each in its place. -/
theorem occurs_iff {cs : List Char} {i : Nat} {t : Markup} :
    Occurs cs i t ↔ ∃ before after, pieces cs = before ++ .token t :: after ∧
      (before.flatMap Piece.source).length = i := by
  induction cs using cut_induction generalizing i with
  | nil =>
    refine iff_of_false (not_occurs_nil i t) ?_
    rintro ⟨before, after, hpieces, -⟩
    exact List.append_ne_nil_of_right_ne_nil before (List.cons_ne_nil _ _) hpieces.symm
  | token u rest hu ih =>
    rw [pieces_source_append hu, occurs_source_append_iff hu, exists_split_cons_iff]
    simp only [ih, Piece.source, Piece.token.injEq]
  | char c rest hat ih =>
    rw [pieces_cons_of_at?_eq_none hat, occurs_cons_iff hat, exists_split_cons_iff]
    simp only [ih, Piece.source, List.length_singleton, reduceCtorEq, false_and, false_or]

theorem mem_table_of_mem_pieces {cs : List Char} {t : Markup} (h : .token t ∈ pieces cs) :
    t ∈ table := by
  obtain ⟨before, after, hcut⟩ := List.append_of_mem h
  exact (occurs_iff.mpr ⟨before, after, hcut, rfl⟩).mem_table

/-! ## Splitting a text -/

/-- No token reaches from the one part of a text into the other. -/
def Apart (u v : List Char) : Prop :=
  ∀ i t, Occurs (u ++ v) i t → i + t.source.length ≤ u.length ∨ u.length ≤ i

theorem apart_iff {u v : List Char} :
    Apart u v ↔ ∀ i < u.length, ∀ t ∈ table, t.source <+: (u ++ v).drop i →
      i + t.source.length ≤ u.length := by
  constructor
  · intro h i hi t ht hbegins
    exact (h i t ⟨ht, hbegins⟩).resolve_right (Nat.not_le.mpr hi)
  · intro h i t ht
    by_cases hi : i < u.length
    · exact Or.inl (h i hi t ht.mem_table ht.begins)
    · exact Or.inr (Nat.not_lt.mp hi)

instance (u v : List Char) : Decidable (Apart u v) := decidable_of_iff _ apart_iff.symm

/-- No token reaches over a place if none has the character there where it would have to. -/
theorem apart_cons {u rest : List Char} {c : Char}
    (h : ∀ t ∈ table, ∀ before after, before <:+ u → after <+: rest →
      t.source ≠ before ++ c :: after) : Apart u (c :: rest) := by
  rw [apart_iff]
  intro i hi t ht hbegins
  obtain ⟨behind, hbehind⟩ := hbegins
  rw [List.drop_append_of_le_length (Nat.le_of_lt hi)] at hbehind
  rcases List.append_eq_append_iff.mp hbehind with ⟨more, hmore, -⟩ | ⟨tail, htail, hcons⟩
  · -- the token ends before the character
    have hlength := congrArg List.length hmore
    rw [List.length_drop, List.length_append] at hlength
    omega
  · rcases tail with _ | ⟨d, tail⟩
    · rw [htail, List.append_nil, List.length_drop]
      omega
    · -- the character belongs to the token
      obtain ⟨rfl, hrest⟩ := List.cons.inj hcons
      exact absurd htail (h t ht _ _ (List.drop_suffix i u) ⟨behind, hrest.symm⟩)

theorem apart_source_append {t : Markup} (ht : t ∈ table) (u rest : List Char) :
    Apart u (t.source ++ rest) := by
  intro i s hs
  have hnext : Occurs (u ++ (t.source ++ rest)) (u.length + 0) t :=
    (occurs_append_iff u).mpr ⟨ht, List.prefix_append _ _⟩
  by_cases hi : i < u.length
  · exact Or.inl (hs.le_of_lt hnext hi)
  · exact Or.inr (Nat.not_lt.mp hi)

theorem Apart.of_append (front : List Char) {u v : List Char} (h : Apart (front ++ u) v) :
    Apart u v := by
  intro i t ht
  have hall := h (front.length + i) t
  rw [List.append_assoc, occurs_append_iff, List.length_append] at hall
  rcases hall ht with hleft | hright
  · exact Or.inl (by omega)
  · exact Or.inr (by omega)

/-- Text that is split where no token stands is cut in the same way on both sides. -/
theorem pieces_append {u v : List Char} (h : Apart u v) :
    pieces (u ++ v) = pieces u ++ pieces v := by
  induction u using cut_induction with
  | nil => rfl
  | token t rest ht ih =>
    rw [List.append_assoc, pieces_source_append ht, pieces_source_append ht,
      ih (h.of_append t.source), List.cons_append]
  | char c rest hat ih =>
    have hnone : at? (c :: rest ++ v) = none := by
      rw [at?_eq_none_iff] at hat ⊢
      intro t ht
      -- a token at the front would have to end within the first part
      have hle : 0 + t.source.length ≤ (c :: rest).length :=
        (h 0 t ht).resolve_right (Nat.not_le.mpr (Nat.succ_pos _))
      refine hat t ⟨ht.mem_table, ?_⟩
      rw [Nat.zero_add] at hle
      exact List.prefix_of_prefix_length_le ht.begins (List.prefix_append _ _) hle
    rw [List.cons_append] at hnone ⊢
    rw [pieces_cons_of_at?_eq_none hnone, pieces_cons_of_at?_eq_none hat,
      ih (Apart.of_append [c] h), List.cons_append]

theorem toList_normalize (fragment : String) :
    (normalize fragment).toList = replaced (Text.trimmed fragment.toList) := by
  rw [normalize, String.toList_ofList]

/-- Where no token stands the two parts of a text can be replaced on their own. -/
theorem replaced_append {u v : List Char} (h : Apart u v) :
    replaced (u ++ v) = replaced u ++ replaced v := by
  rw [replaced, pieces_append h, List.flatMap_append, replaced, replaced]

theorem replaced_source_append {t : Markup} (ht : t ∈ table) (rest : List Char) :
    replaced (t.source ++ rest) = t.replacement ++ replaced rest := by
  rw [replaced, pieces_source_append ht, List.flatMap_cons, replaced]
  rfl

theorem replaced_cons {c : Char} (hc : opens c = false) (rest : List Char) :
    replaced (c :: rest) = c :: replaced rest := by
  have hnone : at? (c :: rest) = none := by
    rw [at?_eq_none_iff]
    intro t ht
    obtain ⟨d, hd, hopens⟩ := ht.exists_opens
    cases hd
    rw [hc] at hopens
    cases hopens
  rw [replaced, pieces_cons_of_at?_eq_none hnone, List.flatMap_cons, replaced]
  rfl

end Markup

end CitationFilter
