import CitationFilter.Text.Lines
import Mathlib.Tactic.SplitIfs

/-!
# Lines of texts

A stream is cut at the bytes that end a line, and a text at the characters that do. The two agree,
because in UTF-8 no other character has the byte of a line feed in it: the bytes of a character
beyond ASCII all lie beyond ASCII. So the bytes of a text without line feeds, with one put behind
them, are one line of any stream that begins with them.
-/

namespace CitationFilter

namespace Bytes

/-! ## The bytes of a text -/

theorem ofText_eq_flatMap (s : String) : ofText s = s.toList.flatMap String.utf8EncodeChar := by
  rw [ofText, String.toUTF8_eq_toByteArray, ← String.utf8Encode_toList, List.utf8Encode,
    List.data_toByteArray]

theorem ofText_append (s t : String) : ofText (s ++ t) = ofText s ++ ofText t := by
  simp [ofText_eq_flatMap]

theorem le_of_mem_utf8EncodeChar {c : Char} (h : 127 < c.val.toNat) :
    ∀ b ∈ String.utf8EncodeChar c, 128 ≤ b.toNat := by
  have hbyte (n : Nat) (hlow : 128 ≤ n) (hhigh : n < 256) : 128 ≤ (UInt8.ofNat n).toNat := by
    rwa [UInt8.toNat_ofNat', Nat.mod_eq_of_lt hhigh]
  simp only [String.utf8EncodeChar, if_neg (Nat.not_le.mpr h)]
  split_ifs <;>
    simp only [List.forall_mem_cons, List.not_mem_nil, false_imp_iff, implies_true, and_true]
  · constructor <;> apply hbyte <;> omega
  · refine ⟨?_, ?_, ?_⟩ <;> apply hbyte <;> omega
  · refine ⟨?_, ?_, ?_, ?_⟩ <;> apply hbyte <;> omega

theorem eq_of_lineFeed_mem_utf8EncodeChar {c : Char} (h : lineFeed ∈ String.utf8EncodeChar c) :
    c = '\n' := by
  by_cases hc : 127 < c.val.toNat
  · exact absurd (le_of_mem_utf8EncodeChar hc _ h) (by decide)
  · have hascii : c.val.toNat ≤ 127 := Nat.not_lt.mp hc
    simp only [String.utf8EncodeChar, if_pos hascii, List.mem_singleton] at h
    have hten : 10 = c.val.toNat := by
      have htoNat := congrArg UInt8.toNat h
      rwa [UInt8.toNat_ofNat', Nat.mod_eq_of_lt (by omega)] at htoNat
    exact Char.ext (UInt32.toNat_inj.mp hten.symm)

theorem lineFeed_not_mem_ofText {s : String} (h : '\n' ∉ s.toList) : lineFeed ∉ ofText s := by
  rw [ofText_eq_flatMap, List.mem_flatMap]
  rintro ⟨c, hc, hbyte⟩
  rw [eq_of_lineFeed_mem_utf8EncodeChar hbyte] at hc
  exact h hc

/-! ## The first line -/

/-- The first line goes up to the first line feed. -/
theorem lines_append_lineFeed {body : Bytes} (h : lineFeed ∉ body) (rest : Bytes) :
    lines (body ++ lineFeed :: rest) = (body ++ [lineFeed]) :: lines rest := by
  induction body with
  | nil => rw [List.nil_append, lines, if_pos rfl, List.nil_append]
  | cons b body ih =>
    obtain ⟨hb, hbody⟩ := List.ne_and_not_mem_of_not_mem_cons h
    rw [List.cons_append, lines, if_neg (Ne.symm hb), ih hbody]
    rfl

theorem lines_of_lineFeed_not_mem {rest : Bytes} (h : lineFeed ∉ rest) (hne : rest ≠ []) :
    lines rest = [rest] := by
  induction rest with
  | nil => exact absurd rfl hne
  | cons b rest ih =>
    obtain ⟨hb, hrest⟩ := List.ne_and_not_mem_of_not_mem_cons h
    rw [lines, if_neg (Ne.symm hb)]
    by_cases hnil : rest = []
    · rw [hnil]
      rfl
    · rw [ih hrest hnil]

theorem lines_ofText_append {s : String} (h : '\n' ∉ s.toList) (rest : Bytes) :
    lines (ofText (s ++ "\n") ++ rest) = ofText (s ++ "\n") :: lines rest := by
  have hfeed : ofText "\n" = [lineFeed] := by decide +kernel
  rw [ofText_append, hfeed, List.append_assoc, List.singleton_append,
    lines_append_lineFeed (lineFeed_not_mem_ofText h)]

end Bytes

end CitationFilter
