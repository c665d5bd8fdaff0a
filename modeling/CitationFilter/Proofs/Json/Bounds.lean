import CitationFilter.Proofs.Json.Reader

/-!
# What is read fits

A value that was read has no containers nested deeper than the reader allows, no repeated keys, and
only numbers that some text is read as. The reader keeps this of every container that is still open
(`Reader.Sound`): what it holds so far fits into the room that is left at its depth.
-/

namespace CitationFilter

namespace Json

/-- A property that every step preserves holds after all steps. -/
theorem foldlM_invariant {α β : Type} {f : β → α → Option β} {P : β → Prop} {as : List α}
    (hf : ∀ b, ∀ a ∈ as, ∀ b', P b → f b a = some b' → P b') {b b' : β} (hb : P b)
    (h : as.foldlM f b = some b') : P b' := by
  induction as generalizing b with
  | nil =>
    cases h
    exact hb
  | cons a rest ih =>
    obtain ⟨next, hnext, hrest⟩ := Option.bind_eq_some_iff.mp h
    exact ih (fun c a' ha' ↦ hf c a' (List.mem_cons_of_mem _ ha'))
      (hf b a List.mem_cons_self next hb hnext) hrest

theorem eq_or_of_ite_eq_some {α : Type} {p : Prop} [Decidable p] {a b : α} {other : Option α}
    (h : (if p then some a else other) = some b) : a = b ∨ other = some b := by
  by_cases hp : p
  · rw [if_pos hp] at h
    exact Or.inl (Option.some.inj h)
  · rw [if_neg hp] at h
    exact Or.inr h

/-! ## Numbers in tokens -/

namespace Lexer

/-- All numbers among the tokens have been read. -/
def NumbersRead (ts : List Token) : Prop := ∀ n, Token.num n ∈ ts → n.IsRead

theorem NumbersRead.cons {ts : List Token} (h : NumbersRead ts) {t : Token}
    (ht : ∀ n, t = .num n → n.IsRead) : NumbersRead (t :: ts) := by
  intro n hn
  rcases List.mem_cons.mp hn with heq | hn
  · exact ht n heq.symm
  · exact h n hn

theorem wordToken?_ne_num {word : List Char} {t : Token} (h : wordToken? word = some t)
    (n : Number) : t ≠ .num n := by
  rw [wordToken?] at h
  obtain rfl | h := eq_or_of_ite_eq_some h
  · nofun
  obtain rfl | h := eq_or_of_ite_eq_some h
  · nofun
  obtain rfl | h := eq_or_of_ite_eq_some h
  · nofun
  · cases h

/-- A token that has no end yet is no exception. -/
theorem Holds.numbersRead {l : Lexer} {ts : List Token} (h : Holds l ts)
    (hl : NumbersRead l.tokens) : NumbersRead ts := by
  cases h with
  | between => exact hl
  | word hword => exact hl.cons fun n heq ↦ absurd heq (wordToken?_ne_num hword n)
  | number hnumber =>
    refine hl.cons ?_
    rintro _ ⟨⟩
    exact ⟨_, hnumber⟩

theorem numbersRead_begin {ts : List Token} {c : Char} {l : Lexer} (hts : NumbersRead ts)
    (h : begin ts c = some l) : NumbersRead l.tokens := by
  have hmark : ∀ t : Token, (∀ n, t ≠ .num n) → NumbersRead (t :: ts) := fun t ht ↦
    hts.cons fun n heq ↦ absurd heq (ht n)
  rw [begin] at h
  -- between two tokens, or a punctuation mark, or the beginning of a longer token
  obtain rfl | h := eq_or_of_ite_eq_some h
  · exact hts
  obtain rfl | h := eq_or_of_ite_eq_some h
  · exact hmark _ fun _ h ↦ by cases h
  obtain rfl | h := eq_or_of_ite_eq_some h
  · exact hmark _ fun _ h ↦ by cases h
  obtain rfl | h := eq_or_of_ite_eq_some h
  · exact hmark _ fun _ h ↦ by cases h
  obtain rfl | h := eq_or_of_ite_eq_some h
  · exact hmark _ fun _ h ↦ by cases h
  obtain rfl | h := eq_or_of_ite_eq_some h
  · exact hmark _ fun _ h ↦ by cases h
  obtain rfl | h := eq_or_of_ite_eq_some h
  · exact hmark _ fun _ h ↦ by cases h
  obtain rfl | h := eq_or_of_ite_eq_some h
  · exact hts
  obtain rfl | h := eq_or_of_ite_eq_some h
  · exact hts
  obtain rfl | h := eq_or_of_ite_eq_some h
  · exact hts
  · cases h

theorem numbersRead_step {l l' : Lexer} {c : Char} (hl : NumbersRead l.tokens)
    (h : l.step c = some l') : NumbersRead l'.tokens := by
  obtain ⟨tokens, state⟩ := l
  rw [step] at h
  cases state with
  | between =>
    exact numbersRead_begin hl h
  | word seen =>
    dsimp only at h
    split at h
    · cases h
      exact hl
    · obtain ⟨t, ht, hbegin⟩ := Option.bind_eq_some_iff.mp h
      exact numbersRead_begin ((Holds.word ht).numbersRead hl) hbegin
  | number seen =>
    dsimp only at h
    split at h
    · cases h
      exact hl
    · obtain ⟨n, hn, hbegin⟩ := Option.bind_eq_some_iff.mp h
      exact numbersRead_begin ((Holds.number hn).numbersRead hl) hbegin
  | string seen =>
    dsimp only at h
    split at h
    · cases h
      exact hl.cons fun _ h ↦ by cases h
    split at h
    · cases h
      exact hl
    split at h
    · cases h
    · cases h
      exact hl
  | escape seen =>
    dsimp only at h
    split at h
    · cases h
      exact hl
    · obtain ⟨e, -, rfl⟩ := Option.map_eq_some_iff.mp h
      exact hl
  | unit seen lead digits value =>
    obtain ⟨d, -, hd⟩ := Option.bind_eq_some_iff.mp h
    dsimp only at hd
    split at hd
    · obtain ⟨state, -, rfl⟩ := Option.map_eq_some_iff.mp hd
      exact hl
    · cases hd
      exact hl
  | partner seen lead =>
    dsimp only at h
    split at h
    · cases h
      exact hl
    · cases h
  | partnerEscape seen lead =>
    dsimp only at h
    split at h
    · cases h
      exact hl
    · cases h

theorem numbersRead_finish {l : Lexer} {ts : List Token} (hl : NumbersRead l.tokens)
    (h : l.finish = some ts) : NumbersRead ts := by
  have hreverse : ∀ {others}, Holds l others → NumbersRead others.reverse :=
    fun hothers n hn ↦ hothers.numbersRead hl n (List.mem_reverse.mp hn)
  obtain ⟨tokens, state⟩ := l
  cases state with
  | between =>
    cases h
    exact hreverse (.between tokens)
  | word seen =>
    obtain ⟨t, ht, rfl⟩ := Option.map_eq_some_iff.mp h
    exact hreverse (.word ht)
  | number seen =>
    obtain ⟨n, hn, rfl⟩ := Option.map_eq_some_iff.mp h
    exact hreverse (.number hn)
  | string seen => cases h
  | escape seen => cases h
  | unit seen lead digits value => cases h
  | partner seen lead => cases h
  | partnerEscape seen lead => cases h

end Lexer

theorem isRead_of_tokens? {text : List Char} {ts : List Token} (h : tokens? text = some ts) :
    ∀ n, Token.num n ∈ ts → n.IsRead := by
  obtain ⟨l, hl, hfinish⟩ := Option.bind_eq_some_iff.mp h
  have hstart : Lexer.NumbersRead Lexer.start.tokens := nofun
  have hlast : Lexer.NumbersRead l.tokens :=
    foldlM_invariant (fun _ _ _ _ hbefore hstep ↦ Lexer.numbersRead_step hbefore hstep) hstart hl
  exact Lexer.numbersRead_finish hlast hfinish

/-! ## Values in open containers -/

/-- The values that an open container holds so far. -/
def Frame.values : Frame → List Json
  | .array items => items
  | .object fields => fields.map Prod.snd
  | .entry fields _ => fields.map Prod.snd

/-- The value fits where some containers are open around it, once repeated keys are resolved. -/
def FitsInside (wanted : Number → Prop) (around : Nat) (v : Json) : Prop :=
  Fits wanted (Reader.deepest - around) v.merged

theorem fits_merged_arr {wanted : Number → Prop} {n : Nat} {items : List Json}
    (h : ∀ item ∈ items, Fits wanted n item.merged) : Fits wanted (n + 1) (arr items).merged := by
  rw [merged, mergedItems_eq_map]
  exact .arr (List.forall_mem_map.mpr h)

theorem fits_merged_obj {wanted : Number → Prop} {n : Nat} {fields : List (String × Json)}
    (h : ∀ field ∈ fields, Fits wanted n field.2.merged) :
    Fits wanted (n + 1) (obj fields).merged := by
  rw [merged, mergedValues_eq_map]
  refine .obj (nodup_keys_mergedFields _) fun field hfield ↦ ?_
  obtain ⟨field', hfield', rfl⟩ := List.mem_map.mp (mem_of_mem_mergedFields hfield)
  exact h field' hfield'

namespace Reader

variable {wanted : Number → Prop}

/-- What the open containers hold fits at the depth where they are. -/
def FramesFit (wanted : Number → Prop) : List Frame → Prop
  | [] => True
  | frame :: outer =>
    outer.length < deepest ∧
      (∀ v ∈ frame.values, FitsInside wanted (outer.length + 1) v) ∧ FramesFit wanted outer

/-- Everything that the reader holds fits. -/
structure Sound (wanted : Number → Prop) (r : Reader) : Prop where
  frames : FramesFit wanted r.frames
  result : ∀ v, r.expected = .nothing v → FitsInside wanted 0 v

theorem sound_add {frames : List Frame} {v : Json} {r : Reader} (hframes : FramesFit wanted frames)
    (hv : FitsInside wanted frames.length v) (h : add v frames = some r) : Sound wanted r := by
  match frames with
  | [] =>
    cases h
    refine ⟨trivial, ?_⟩
    rintro _ ⟨⟩
    exact hv
  | .array items :: outer =>
    cases h
    obtain ⟨hroom, hitems, houter⟩ := hframes
    exact ⟨⟨hroom, List.forall_mem_cons.mpr ⟨hv, hitems⟩, houter⟩, nofun⟩
  | .entry fields key :: outer =>
    cases h
    obtain ⟨hroom, hfields, houter⟩ := hframes
    exact ⟨⟨hroom, List.forall_mem_cons.mpr ⟨hv, hfields⟩, houter⟩, nofun⟩
  | .object fields :: outer => cases h

theorem sound_enter {frame : Frame} {expected : Expected} {frames : List Frame} {r : Reader}
    (hframes : FramesFit wanted frames) (hframe : frame.values = [])
    (hexpected : ∀ v, expected ≠ .nothing v) (h : enter frame expected frames = some r) :
    Sound wanted r := by
  rw [enter] at h
  split at h
  · rename_i hroom
    cases h
    refine ⟨⟨hroom, ?_, hframes⟩, fun v heq ↦ absurd heq (hexpected v)⟩
    rw [hframe]
    exact List.forall_mem_nil _
  · cases h

/-- There was room for the container when it was opened. -/
theorem deepest_sub_eq {n : Nat} (h : n < deepest) : deepest - n = deepest - (n + 1) + 1 := by
  omega

theorem sound_closeArray {frames : List Frame} {r : Reader} (hframes : FramesFit wanted frames)
    (h : closeArray frames = some r) : Sound wanted r := by
  rw [closeArray.eq_def] at h
  split at h
  · rename_i items outer
    obtain ⟨hroom, hitems, houter⟩ := hframes
    refine sound_add houter ?_ h
    rw [FitsInside, deepest_sub_eq hroom]
    exact fits_merged_arr fun item hitem ↦ hitems item (List.mem_reverse.mp hitem)
  · cases h

theorem sound_closeObject {frames : List Frame} {r : Reader} (hframes : FramesFit wanted frames)
    (h : closeObject frames = some r) : Sound wanted r := by
  rw [closeObject.eq_def] at h
  split at h
  · rename_i fields outer
    obtain ⟨hroom, hfields, houter⟩ := hframes
    refine sound_add houter ?_ h
    rw [FitsInside, deepest_sub_eq hroom]
    exact fits_merged_obj fun field hfield ↦
      hfields field.2 (List.mem_map_of_mem (List.mem_reverse.mp hfield))
  · cases h

theorem sound_beginValue {frames : List Frame} {t : Token} {r : Reader}
    (hframes : FramesFit wanted frames) (ht : ∀ n, t = .num n → wanted n)
    (h : beginValue frames t = some r) : Sound wanted r := by
  cases t with
  | openArray =>
    refine sound_enter hframes rfl ?_ h
    nofun
  | openObject =>
    refine sound_enter hframes rfl ?_ h
    nofun
  | null =>
    have hv : FitsInside wanted frames.length .null := Fits.null
    exact sound_add hframes hv h
  | bool b =>
    have hv : FitsInside wanted frames.length (.bool b) := Fits.bool
    exact sound_add hframes hv h
  | num n =>
    have hv : FitsInside wanted frames.length (.num n) := Fits.num (ht n rfl)
    exact sound_add hframes hv h
  | str s =>
    have hv : FitsInside wanted frames.length (.str s) := Fits.str
    exact sound_add hframes hv h
  | closeArray => cases h
  | closeObject => cases h
  | comma => cases h
  | colon => cases h

theorem sound_beginField {frames : List Frame} {t : Token} {r : Reader}
    (hframes : FramesFit wanted frames) (h : beginField frames t = some r) : Sound wanted r := by
  rw [beginField.eq_def] at h
  split at h
  · cases h
    exact ⟨hframes, nofun⟩
  · cases h

theorem sound_goOn {frames : List Frame} {t : Token} {r : Reader}
    (hframes : FramesFit wanted frames) (h : goOn frames t = some r) : Sound wanted r := by
  rw [goOn.eq_def] at h
  split at h
  · cases h
    exact ⟨hframes, nofun⟩
  · cases h
    exact ⟨hframes, nofun⟩
  · exact sound_closeArray hframes h
  · exact sound_closeObject hframes h
  · cases h

theorem sound_step {r r' : Reader} {t : Token} (hr : Sound wanted r)
    (ht : ∀ n, t = .num n → wanted n) (h : step r t = some r') : Sound wanted r' := by
  rw [step.eq_def] at h
  split at h
  · exact sound_beginValue hr.frames ht h
  · exact sound_closeArray hr.frames h
  · exact sound_beginValue hr.frames ht h
  · exact sound_closeObject hr.frames h
  · exact sound_beginField hr.frames h
  · exact sound_beginField hr.frames h
  · cases h
    exact ⟨hr.frames, nofun⟩
  · exact sound_goOn hr.frames h
  · cases h

end Reader

theorem fits_of_ofTokens? {wanted : Number → Prop} {ts : List Token} {v : Json}
    (hnumbers : ∀ n, Token.num n ∈ ts → wanted n) (h : ofTokens? ts = some v) :
    Fits wanted Reader.deepest v.merged := by
  obtain ⟨r, hr, hfinish⟩ := Option.bind_eq_some_iff.mp h
  have hstart : Reader.Sound wanted Reader.start := ⟨trivial, nofun⟩
  have hlast : Reader.Sound wanted r := by
    refine foldlM_invariant (fun _ t ht _ hbefore hstep ↦ ?_) hstart hr
    exact Reader.sound_step hbefore (fun n heq ↦ hnumbers n (heq ▸ ht)) hstep
  rw [Reader.finish] at hfinish
  split at hfinish
  · rename_i hexpected
    cases hfinish
    exact hlast.result v hexpected
  · cases hfinish

/-- No container in a text that was read is nested too deep for the reader, and every number is one
that some text is read as. -/
theorem fits_of_readAll? {text : String} {v : Json} (h : readAll? text = some v) :
    Fits Number.IsRead Reader.deepest v.merged := by
  obtain ⟨ts, hts, hvalue⟩ := Option.bind_eq_some_iff.mp h
  exact fits_of_ofTokens? (isRead_of_tokens? hts) hvalue

theorem fits_of_merged_arr {wanted : Number → Prop} {n : Nat} {items : List Json}
    (h : Fits wanted (n + 1) (arr items).merged) : ∀ item ∈ items, Fits wanted n item.merged := by
  rw [merged, mergedItems_eq_map] at h
  obtain ⟨⟩ | ⟨⟩ | ⟨⟩ | ⟨⟩ | hitems := h
  exact List.forall_mem_map.mp hitems

theorem fits_of_merged_obj {wanted : Number → Prop} {n : Nat} {fields : List (String × Json)}
    (h : Fits wanted (n + 1) (obj fields).merged) {key : String} {v : Json}
    (hlast : fields.reverse.lookup key = some v) : Fits wanted n v.merged := by
  rw [merged, mergedValues_eq_map] at h
  obtain ⟨⟩ | ⟨⟩ | ⟨⟩ | ⟨⟩ | ⟨⟩ | ⟨-, hfields⟩ := h
  refine hfields (key, v.merged) (mem_of_lookup ?_)
  rw [lookup_mergedFields, ← List.map_reverse, lookup_map_values, hlast, Option.map_some]

/-- **What is read fits.** No container in a value that was read is nested too deep for the reader,
no key is repeated, and every number is one that some text is read as. -/
theorem fits_of_read? {text : String} {v : Json} (h : read? text = some v) :
    Fits Number.IsRead Reader.deepest v := by
  obtain ⟨raw, hraw, rfl⟩ := Option.map_eq_some_iff.mp h
  exact fits_of_readAll? hraw

end Json

end CitationFilter
