import CitationFilter.Json.Number

/-!
# Tokens of a JSON text

A text is read in two steps, first into tokens and then into a value. The first step is an
automaton: it looks at one character at a time and only remembers what it is in the middle of. So
reading a text is a fold over its characters, and reading a text that goes on is reading its
beginning and continuing from the state reached.

The other direction is `Token.chars`, which spells a token.
-/

namespace CitationFilter

namespace Json

/-- The smallest meaningful parts of a JSON text. -/
inductive Token where
  | openArray
  | closeArray
  | openObject
  | closeObject
  | comma
  | colon
  | null
  | bool (b : Bool)
  | num (n : Number)
  | str (s : String)
deriving DecidableEq, Repr

namespace Token

/-! ## Spelling a token -/

/-- A hexadecimal digit in lower case. -/
def hexDigit (n : Nat) : Char := Nat.digitChar n

/-- The way one character is spelled inside a string. -/
def stringChar (c : Char) : List Char :=
  if c = '"' ∨ c = '\\' then ['\\', c]
  else if c = '\x08' then ['\\', 'b']
  else if c = '\x0c' then ['\\', 'f']
  else if c = '\n' then ['\\', 'n']
  else if c = '\r' then ['\\', 'r']
  else if c = '\t' then ['\\', 't']
  else if c.toNat < 0x20 then
    ['\\', 'u', '0', '0', hexDigit (c.toNat / 16), hexDigit (c.toNat % 16)]
  else [c]

/-- The spelling of a token. -/
def chars : Token → List Char
  | .openArray => ['[']
  | .closeArray => [']']
  | .openObject => ['{']
  | .closeObject => ['}']
  | .comma => [',']
  | .colon => [':']
  | .null => ['n', 'u', 'l', 'l']
  | .bool true => ['t', 'r', 'u', 'e']
  | .bool false => ['f', 'a', 'l', 's', 'e']
  | .num n => n.chars
  | .str s => '"' :: s.toList.flatMap stringChar ++ ['"']

end Token

/-! ## The automaton -/

/-- What the automaton is in the middle of. Characters gathered so far are in reverse order. -/
inductive Lexer.State where
  /-- Between two tokens. -/
  | between
  /-- Inside `null`, `true` or `false`. -/
  | word (seen : List Char)
  /-- Inside a number. -/
  | number (seen : List Char)
  /-- Inside a string. -/
  | string (seen : List Char)
  /-- After a backslash inside a string. -/
  | escape (seen : List Char)
  /-- Inside the four digits of an escape, after an unpaired leading unit if there is one. -/
  | unit (seen : List Char) (lead : Option Nat) (digits value : Nat)
  /-- After a leading unit, whose partner has to follow. -/
  | partner (seen : List Char) (lead : Nat)
  /-- After a leading unit and a backslash. -/
  | partnerEscape (seen : List Char) (lead : Nat)
deriving DecidableEq, Repr

/-- The automaton: the tokens read so far, the last one first, and what it is in the middle of. -/
structure Lexer where
  /-- The tokens read so far, the last one first. -/
  tokens : List Token
  /-- What the automaton is in the middle of. -/
  state : Lexer.State
deriving DecidableEq, Repr

namespace Lexer

/-- The automaton before the first character. -/
def start : Lexer := ⟨[], .between⟩

/-- The characters that may stand between tokens. -/
def isSpace (c : Char) : Bool := c = ' ' || c = '\t' || c = '\n' || c = '\r'

/-- The characters that numbers are made of. -/
def isNumeric (c : Char) : Bool :=
  c.isDigit || c = '-' || c = '+' || c = '.' || c = 'e' || c = 'E'

/-- The token that a word spells. -/
def wordToken? (word : List Char) : Option Token :=
  if word = ['n', 'u', 'l', 'l'] then some .null
  else if word = ['t', 'r', 'u', 'e'] then some (.bool true)
  else if word = ['f', 'a', 'l', 's', 'e'] then some (.bool false)
  else none

/-- Reads a character that stands between two tokens. -/
def begin (tokens : List Token) (c : Char) : Option Lexer :=
  if isSpace c then some ⟨tokens, .between⟩
  else if c = '[' then some ⟨.openArray :: tokens, .between⟩
  else if c = ']' then some ⟨.closeArray :: tokens, .between⟩
  else if c = '{' then some ⟨.openObject :: tokens, .between⟩
  else if c = '}' then some ⟨.closeObject :: tokens, .between⟩
  else if c = ',' then some ⟨.comma :: tokens, .between⟩
  else if c = ':' then some ⟨.colon :: tokens, .between⟩
  else if c = '"' then some ⟨tokens, .string []⟩
  else if c = '-' || c.isDigit then some ⟨tokens, .number [c]⟩
  else if c.isAlpha then some ⟨tokens, .word [c]⟩
  else none

/-- The character that a letter after a backslash stands for. -/
def escaped? (c : Char) : Option Char :=
  if c = '"' ∨ c = '\\' ∨ c = '/' then some c
  else if c = 'b' then some '\x08'
  else if c = 'f' then some '\x0c'
  else if c = 'n' then some '\n'
  else if c = 'r' then some '\r'
  else if c = 't' then some '\t'
  else none

/-- The value of a hexadecimal digit in either case. -/
def hexValue? (c : Char) : Option Nat :=
  if c.isDigit then some (c.toNat - '0'.toNat)
  else if 'a' ≤ c ∧ c ≤ 'f' then some (c.toNat - 'a'.toNat + 10)
  else if 'A' ≤ c ∧ c ≤ 'F' then some (c.toNat - 'A'.toNat + 10)
  else none

/-- Whether a unit of 16 bits is the first of a pair. -/
def isLeading (unit : Nat) : Bool := 0xD800 ≤ unit && unit ≤ 0xDBFF

/-- Whether a unit of 16 bits is the second of a pair. -/
def isTrailing (unit : Nat) : Bool := 0xDC00 ≤ unit && unit ≤ 0xDFFF

/-- Goes on after a complete unit: a leading one waits for its partner, a trailing one needs the
leading one before it. -/
def unitRead (seen : List Char) (lead : Option Nat) (unit : Nat) : Option State :=
  match lead with
  | none =>
    if isLeading unit then some (.partner seen unit)
    else if isTrailing unit then none
    else some (.string (Char.ofNat unit :: seen))
  | some first =>
    if isTrailing unit then
      let code := 0x10000 + (first - 0xD800) * 0x400 + (unit - 0xDC00)
      some (.string (Char.ofNat code :: seen))
    else none

/-- Reads one character. -/
def step (l : Lexer) (c : Char) : Option Lexer :=
  match l.state with
  | .between => begin l.tokens c
  | .word seen =>
    if c.isAlpha then some ⟨l.tokens, .word (c :: seen)⟩
    else (wordToken? seen.reverse).bind fun t ↦ begin (t :: l.tokens) c
  | .number seen =>
    if isNumeric c then some ⟨l.tokens, .number (c :: seen)⟩
    else (Number.ofChars? seen.reverse).bind fun n ↦ begin (.num n :: l.tokens) c
  | .string seen =>
    if c = '"' then some ⟨.str (String.ofList seen.reverse) :: l.tokens, .between⟩
    else if c = '\\' then some ⟨l.tokens, .escape seen⟩
    else if c.toNat < 0x20 then none
    else some ⟨l.tokens, .string (c :: seen)⟩
  | .escape seen =>
    if c = 'u' then some ⟨l.tokens, .unit seen none 0 0⟩
    else (escaped? c).map fun e ↦ ⟨l.tokens, .string (e :: seen)⟩
  | .unit seen lead digits value =>
    (hexValue? c).bind fun d ↦
      let value := 16 * value + d
      if digits = 3 then (unitRead seen lead value).map fun s ↦ ⟨l.tokens, s⟩
      else some ⟨l.tokens, .unit seen lead (digits + 1) value⟩
  | .partner seen lead => if c = '\\' then some ⟨l.tokens, .partnerEscape seen lead⟩ else none
  | .partnerEscape seen lead =>
    if c = 'u' then some ⟨l.tokens, .unit seen (some lead) 0 0⟩ else none

/-- The tokens in order, if the text may end here. -/
def finish (l : Lexer) : Option (List Token) :=
  match l.state with
  | .between => some l.tokens.reverse
  | .word seen => (wordToken? seen.reverse).map fun t ↦ (t :: l.tokens).reverse
  | .number seen => (Number.ofChars? seen.reverse).map fun n ↦ (.num n :: l.tokens).reverse
  | _ => none

end Lexer

/-- The tokens of a text. -/
def tokens? (text : List Char) : Option (List Token) :=
  (text.foldlM Lexer.step Lexer.start).bind Lexer.finish

end Json

end CitationFilter
