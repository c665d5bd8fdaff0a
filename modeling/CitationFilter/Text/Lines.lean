/-!
# Bytes, lines and their texts

What the engine writes is a stream of bytes, and it is read line by line. The stream is therefore
kept as the list of its lines, each with its line feed: reading a line takes the head of the list,
and what nobody has read is the rest. `flatten_lines` says that cutting a stream into lines loses
nothing.

A line is a text only if its bytes are valid UTF-8. For showing bytes of any kind there is a
second, total reading, in which every longest piece that cannot be continued to a character counts
as one replacement character.
-/

namespace CitationFilter

/-- A sequence of bytes. -/
abbrev Bytes := List UInt8

namespace Bytes

/-- The byte that ends a line. -/
def lineFeed : UInt8 := 10

/-! ## Lines -/

/-- The lines of a stream, each with the line feed that ends it; only the last may lack one. -/
def lines : Bytes → List Bytes
  | [] => []
  | b :: rest =>
    if b = lineFeed then [b] :: lines rest
    else
      match lines rest with
      | [] => [[b]]
      | line :: more => (b :: line) :: more

/-- Cutting a stream into lines loses nothing. -/
theorem flatten_lines (bytes : Bytes) : bytes.lines.flatten = bytes := by
  induction bytes with
  | nil => rfl
  | cons b rest ih =>
    rw [lines]
    split
    · simp [ih]
    · split <;> simp_all

/-! ## Texts -/

/-- The bytes of a text. -/
def ofText (s : String) : Bytes := s.toUTF8.data.toList

/-- The text that the bytes spell, if they are valid UTF-8. -/
def toText? (bytes : Bytes) : Option String := String.fromUTF8? ⟨bytes.toArray⟩

theorem toText?_ofText (s : String) : toText? (ofText s) = some s := by
  simp [toText?, ofText, String.fromUTF8?, String.fromUTF8, s.isValidUTF8]

/-! ## Showing any bytes -/

/-- Whether a byte continues a character. -/
def isContinuation (b : UInt8) : Bool := 0x80 ≤ b && b ≤ 0xBF

/-- How many further bytes follow a leading byte, and the range of the first of them. -/
def continuation (lead : UInt8) : Option (Nat × UInt8 × UInt8) :=
  if lead < 0x80 then some (0, 0x80, 0xBF)
  else if lead < 0xC2 then none
  else if lead < 0xE0 then some (1, 0x80, 0xBF)
  else if lead = 0xE0 then some (2, 0xA0, 0xBF)
  else if lead = 0xED then some (2, 0x80, 0x9F)
  else if lead < 0xF0 then some (2, 0x80, 0xBF)
  else if lead = 0xF0 then some (3, 0x90, 0xBF)
  else if lead < 0xF4 then some (3, 0x80, 0xBF)
  else if lead = 0xF4 then some (3, 0x80, 0x8F)
  else none

/-- How many of the bytes after a leading byte belong to its character, out of those needed. -/
def continued (lead : UInt8) (rest : Bytes) : Nat × Nat :=
  match continuation lead with
  | none => (0, 1)
  | some (needed, lo, hi) =>
    let first := rest.take needed
    match first with
    | [] => (0, needed)
    | b :: more =>
      if lo ≤ b && b ≤ hi then (1 + (more.takeWhile isContinuation).length, needed) else (0, needed)

/-- The text of the bytes, where what is not UTF-8 is shown as replacement characters. -/
def shown : Bytes → List Char
  | [] => []
  | lead :: rest =>
    let (found, needed) := continued lead rest
    let piece := lead :: rest.take found
    let here := if found = needed then (toText? piece).getD "\uFFFD" else "\uFFFD"
    here.toList ++ shown (rest.drop found)
termination_by bytes => bytes.length
decreasing_by rw [List.length_drop, List.length_cons]; omega

end Bytes

end CitationFilter
