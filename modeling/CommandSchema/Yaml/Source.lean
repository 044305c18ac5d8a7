/-!
# The characters of a YAML text

A YAML text as its characters with their places. A line break of any spelling is one character, so
nothing that reads the text has to know how it was spelled; a NUL, which no YAML text may hold,
stands after the last character.

* `Source.ofText?`: the characters of a text, if all of them are allowed.
* `peek`, `columnOf`, `spanWhile`: what the readers look at.
-/

namespace CommandSchema.Yaml

/-- A character and its place: its offset in the text, its line and its column, all from zero. -/
structure Glyph where
  char : Char
  offset : Nat
  line : Nat
  column : Nat
  deriving DecidableEq, Repr

/-- What is left of a text. -/
abbrev Source := List Glyph

/-- The line separator of Unicode. -/
def lineSeparator : Char := '\u2028'

/-- The paragraph separator of Unicode. -/
def paragraphSeparator : Char := '\u2029'

/-- A space or a tab. -/
def isGapChar (c : Char) : Bool := c == ' ' || c == '\t'

/-- A line break. -/
def isBreak (c : Char) : Bool := c == '\n' || c == lineSeparator || c == paragraphSeparator

/-- The mark after the last character. -/
def isEnd (c : Char) : Bool := c == '\x00'

/-- A line break or the end. -/
def endsLine (c : Char) : Bool := isBreak c || isEnd c

/-- White space or the end. -/
def endsWord (c : Char) : Bool := isGapChar c || endsLine c

/-- A character that a name may hold: an ASCII letter or digit, an underscore or a hyphen. -/
def isNameChar (c : Char) : Bool := c.isAlphanum || c == '_' || c == '-'

/-- A character that may stand in a YAML text. -/
def isAllowed (c : Char) : Bool :=
  c == '\t' || c == '\n' || c == '\r' || (' ' ≤ c && c ≤ '~') || c == '\x85' ||
    ('\xa0' ≤ c && c.toNat ≤ 0xFFFD) || 0x10000 ≤ c.toNat

/-- Places characters, the first of them at the given place, and adds the end. The line breaks
are a line feed, a carriage return, both in this order, and the next-line control; each becomes a
line feed. The two separators of Unicode break a line too and stay what they are. -/
def locate (offset line column : Nat) : List Char → Source
  | [] => [⟨'\x00', offset, line, column⟩]
  | '\r' :: '\n' :: cs => ⟨'\n', offset, line, column⟩ :: locate (offset + 2) (line + 1) 0 cs
  | c :: cs =>
    if c = '\r' || c = '\n' || c = '\x85' then
      ⟨'\n', offset, line, column⟩ :: locate (offset + 1) (line + 1) 0 cs
    else if isBreak c then ⟨c, offset, line, column⟩ :: locate (offset + 1) (line + 1) 0 cs
    else ⟨c, offset, line, column⟩ :: locate (offset + 1) line (column + 1) cs

/-- The characters of a text with their places. -/
def Source.ofText? (text : String) : Option Source :=
  let cs := text.toList
  if cs.all isAllowed then some (locate 0 0 0 cs) else none

/-- The character `n` places ahead. -/
def peek (s : Source) (n : Nat) : Char :=
  match s[n]? with
  | some g => g.char
  | none => '\x00'

/-- The column of the next character. -/
def columnOf (s : Source) : Nat :=
  match s with
  | [] => 0
  | g :: _ => g.column

/-- The characters up to the first one without a property, and the text from there. -/
def spanWhile (p : Char → Bool) (s : Source) : List Char × Source :=
  let (front, rest) := s.span fun g => p g.char
  (front.map (·.char), rest)

/-- The text from its first character without a property. -/
def skipWhile (p : Char → Bool) (s : Source) : Source := s.dropWhile fun g => p g.char

/-- The text after the spaces and tabs, the comment and the line break at its start; none if
something else stands on the line. -/
def skipLineEnd? (s : Source) : Option Source :=
  let s := skipWhile isGapChar s
  let s := if peek s 0 = '#' then skipWhile (fun c => !endsLine c) s else s
  if isBreak (peek s 0) then some (s.drop 1)
  else if isEnd (peek s 0) then some s
  else none

/-- Three equal characters of a kind at the start of a line, with white space after them. -/
def isMarker (c : Char) (s : Source) : Bool :=
  columnOf s == 0 && peek s 0 == c && peek s 1 == c && peek s 2 == c && endsWord (peek s 3)

/-- A line that starts or ends a document. -/
def isDocumentMarker (s : Source) : Bool := isMarker '-' s || isMarker '.' s

end CommandSchema.Yaml
