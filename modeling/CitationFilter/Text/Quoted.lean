import CitationFilter.Text.Shown

/-!
# Quoted texts

Messages quote the texts they complain about: the text stands between double quotes, with a
backslash before quotes and backslashes, short names for the common controls and the code point in
braces for every other character that is not shown as itself.
-/

namespace CitationFilter

namespace Text

/-- The way one character is written inside a quoted text. -/
def quotedChar (c : Char) : List Char :=
  if c = '\x00' then ['\\', '0']
  else if c = '\t' then ['\\', 't']
  else if c = '\r' then ['\\', 'r']
  else if c = '\n' then ['\\', 'n']
  else if c = '\\' ∨ c = '"' then ['\\', c]
  else if isShown c then [c]
  else ['\\', 'u', '{'] ++ Nat.toDigits 16 c.toNat ++ ['}']

/-- A text between double quotes, as messages show it. -/
def quoted (s : String) : String :=
  String.ofList ('"' :: s.toList.flatMap quotedChar ++ ['"'])

end Text

end CitationFilter
