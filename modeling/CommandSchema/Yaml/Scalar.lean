import CommandSchema.Text.Quoted
import CommandSchema.Yaml.Source

/-!
# The text of YAML scalars

The spellings of a scalar: plain, between single or double quotes, and as a block of lines. Each
reader takes the text one character at a time and gives the scalar's text and what follows it.

* `Gap.folded`: what white space between two words becomes: a lone line break a space, more of
  them all but the first.
* `readPlain?`, `readQuoted?`, `readBlock?`: the readers.
-/

namespace CommandSchema.Yaml

/-! ## White space between words -/

/-- White space that has been passed since the last word. -/
structure Gap where
  /-- The spaces and tabs, while no line break has been passed. -/
  blanks : List Char := []
  /-- The line breaks. -/
  breaks : List Char := []
  /-- The gap starts with an escaped line break. -/
  escaped : Bool := false

namespace Gap

/-- A line break has been passed. -/
def isBroken (g : Gap) : Bool := g.escaped || !g.breaks.isEmpty

/-- Something has been passed. -/
def isOpen (g : Gap) : Bool := g.isBroken || !g.blanks.isEmpty

/-- The gap with one more character of white space. Spaces and tabs around line breaks are
dropped. -/
def add (g : Gap) (c : Char) : Gap :=
  if isBreak c then { g with blanks := [], breaks := g.breaks ++ [c] }
  else if g.isBroken then g
  else { g with blanks := g.blanks ++ [c] }

/-- What the gap becomes between two words. -/
def folded (g : Gap) : List Char :=
  if g.escaped then g.breaks
  else match g.breaks with
    | [] => g.blanks
    | ['\n'] => [' ']
    | '\n' :: more => more
    | breaks => breaks

end Gap

/-! ## Plain scalars -/

/-- A bracket, a brace or a comma. -/
def isFlowMark (c : Char) : Bool :=
  c == ',' || c == '[' || c == ']' || c == '\x7b' || c == '\x7d'

/-- A plain scalar ends before the next character. -/
def plainEnds (inFlow : Bool) (indent : Nat) (gap : Gap) (s : Source) : Bool :=
  isEnd (peek s 0) || (peek s 0 == ':' && endsWord (peek s 1)) ||
    (inFlow && isFlowMark (peek s 0)) ||
    (gap.isOpen &&
      (isDocumentMarker s || peek s 0 == '#' || (!inFlow && columnOf s < indent)))

/-- Reads on in a plain scalar after a gap; `done` is its text so far, last character first. -/
def plainFrom (inFlow : Bool) (indent : Nat) (gap : Gap) (done : List Char) :
    Source → Option (List Char × Bool × Source)
  | [] => none
  | g :: s =>
    if isGapChar g.char || isBreak g.char then
      if g.char == '\t' && gap.isBroken && g.column < indent then none
      else plainFrom inFlow indent (gap.add g.char) done s
    else if plainEnds inFlow indent gap (g :: s) then some (done.reverse, gap.isBroken, g :: s)
    else if inFlow && g.char == ':' && (isFlowMark (peek s 0) || peek s 0 == '?') then none
    else plainFrom inFlow indent {} (g.char :: (gap.folded.reverse ++ done)) s

/-- Reads a plain scalar whose lines after the first are indented by at least `indent`; also says
whether a line break was passed after it. -/
def readPlain? (inFlow : Bool) (indent : Nat) (s : Source) :
    Option (List Char × Bool × Source) :=
  plainFrom inFlow indent {} [] s

/-! ## Quoted scalars -/

/-- Where a reader stands inside a quoted scalar. -/
inductive QuoteState where
  /-- Between characters, after a gap. -/
  | text (gap : Gap)
  /-- After a single quote, which either ends the scalar or is written twice. -/
  | mark
  /-- After a backslash. -/
  | escape
  /-- Inside the digits of a character code: how many are missing, and their value so far. -/
  | code (missing value : Nat)

/-- The character that an escape of one letter stands for. -/
def escaped? (c : Char) : Option Char :=
  match c with
  | '0' => some '\x00'
  | 'a' => some '\x07'
  | 'b' => some '\x08'
  | 't' => some '\t'
  | '\t' => some '\t'
  | 'n' => some '\n'
  | 'v' => some '\x0b'
  | 'f' => some '\x0c'
  | 'r' => some '\r'
  | 'e' => some '\x1b'
  | ' ' => some ' '
  | '\x22' => some '\x22'
  | '/' => some '/'
  | '\\' => some '\\'
  | 'N' => some '\x85'
  | '_' => some '\xa0'
  | 'L' => some lineSeparator
  | 'P' => some paragraphSeparator
  | _ => none

/-- How many digits the character code after an escape has. -/
def codeLength? (c : Char) : Option Nat :=
  match c with
  | 'x' => some 2
  | 'u' => some 4
  | 'U' => some 8
  | _ => none

/-- The character with a code. -/
def ofCode? (n : Nat) : Option Char :=
  if n.isValidChar then some (.ofNat n) else none

/-- Reads on in a quoted scalar. -/
def quotedFrom (single : Bool) (state : QuoteState) (done : List Char) :
    Source → Option (List Char × Source)
  | [] => none
  | g :: s =>
    match state with
    | .text gap =>
      if isGapChar g.char || isBreak g.char then quotedFrom single (.text (gap.add g.char)) done s
      else if isEnd g.char || isDocumentMarker (g :: s) then none
      else
        let done := gap.folded.reverse ++ done
        if single && g.char == '\x27' then quotedFrom single .mark done s
        else if !single && g.char == '\x22' then some (done.reverse, s)
        else if !single && g.char == '\\' then quotedFrom single .escape done s
        else quotedFrom single (.text {}) (g.char :: done) s
    | .mark =>
      if g.char == '\x27' then quotedFrom single (.text {}) ('\x27' :: done) s
      else some (done.reverse, g :: s)
    | .escape =>
      if isBreak g.char then quotedFrom single (.text { escaped := true }) done s
      else match escaped? g.char, codeLength? g.char with
        | some c, _ => quotedFrom single (.text {}) (c :: done) s
        | none, some n => quotedFrom single (.code n 0) done s
        | none, none => none
    | .code missing value =>
      match Text.hexValue? g.char with
      | none => none
      | some d =>
        if missing ≤ 1 then
          match ofCode? (value * 16 + d) with
          | none => none
          | some c => quotedFrom single (.text {}) (c :: done) s
        else quotedFrom single (.code (missing - 1) (value * 16 + d)) done s

/-- Reads a quoted scalar after its opening quote. -/
def readQuoted? (single : Bool) (s : Source) : Option (List Char × Source) :=
  quotedFrom single (.text {}) [] s

/-! ## Block scalars -/

/-- What becomes of the line breaks at the end of a block. -/
inductive Chomping where
  | strip
  | clip
  | keep
  deriving DecidableEq, Repr

/-- The chomping that a sign in the header asks for. -/
def chomping? (c : Char) : Option Chomping :=
  match c with
  | '-' => some .strip
  | '+' => some .keep
  | _ => none

/-- The indentation that a digit in the header asks for; zero is refused. -/
def increment? (c : Char) : Option Nat :=
  if '1' ≤ c && c ≤ '9' then some (c.toNat - 0x30) else none

/-- Reads the header after the indicator: a sign and a digit in either order, each of them at
will, and the end of the line. -/
def readBlockHeader? (s : Source) : Option (Chomping × Option Nat × Source) :=
  let (chomping, s) := match chomping? (peek s 0) with
    | some c => (some c, s.drop 1)
    | none => (none, s)
  let (increment, s) := match increment? (peek s 0) with
    | some n => (some n, s.drop 1)
    | none => (none, s)
  let (chomping, s) := match chomping, increment, chomping? (peek s 0) with
    | none, some _, some c => (some c, s.drop 1)
    | chomping, _, _ => (chomping, s)
  (skipLineEnd? s).map fun s => (chomping.getD .clip, increment, s)

/-- The indentation of a block, from its blank lines and its first other line: the largest column
that the spaces of these lines reach. A tab in place of these spaces is refused. -/
def blockIndent? (largest : Nat) : Source → Option Nat
  | [] => some largest
  | g :: s =>
    if g.char == ' ' then blockIndent? largest s
    else if g.char == '\t' then none
    else
      let largest := max largest g.column
      if isBreak g.char then blockIndent? largest s else some largest

/-- Where a reader stands inside a block. -/
structure BlockState where
  /-- The text so far, last character first. -/
  done : List Char := []
  /-- The line break after the last line that is not empty. -/
  lineBreak : List Char := []
  /-- The line breaks of the empty lines after it, last one first. -/
  emptyLines : List Char := []
  /-- The last line that is not empty starts with white space. -/
  startsBlank : Bool := false
  /-- The reader is inside a line. -/
  inLine : Bool := false

/-- The state at the start of a line that is not empty. In a folded block, the line break before
it becomes a space, or nothing next to empty lines, if neither line starts with white space. -/
def BlockState.startLine (literal : Bool) (b : BlockState) (c : Char) : BlockState :=
  let join : List Char :=
    if !literal && b.lineBreak == ['\n'] && !b.startsBlank && !isGapChar c then
      if b.emptyLines.isEmpty then [' '] else []
    else b.lineBreak
  { done := c :: (b.emptyLines ++ (join ++ b.done)), startsBlank := isGapChar c, inLine := true }

/-- The text of a block after its last line. -/
def BlockState.text (chomping : Chomping) (b : BlockState) : List Char :=
  match chomping with
  | .strip => b.done.reverse
  | .clip => (b.lineBreak ++ b.done).reverse
  | .keep => (b.emptyLines ++ (b.lineBreak ++ b.done)).reverse

/-- Reads on in a block of a known indentation. -/
def blockFrom (literal : Bool) (chomping : Chomping) (indent : Nat) (b : BlockState) :
    Source → Option (List Char × Source)
  | [] => none
  | g :: s =>
    if b.inLine then
      if isEnd g.char then some (b.text chomping, g :: s)
      else if isBreak g.char then
        blockFrom literal chomping indent { b with lineBreak := [g.char], inLine := false } s
      else blockFrom literal chomping indent { b with done := g.char :: b.done } s
    else if g.column < indent && g.char == ' ' then blockFrom literal chomping indent b s
    else if g.column < indent && g.char == '\t' then none
    else if isBreak g.char then
      blockFrom literal chomping indent { b with emptyLines := g.char :: b.emptyLines } s
    else if g.column == indent && !isEnd g.char then
      blockFrom literal chomping indent (b.startLine literal g.char) s
    else some (b.text chomping, g :: s)

/-- Reads a block scalar after its indicator, inside a collection whose column is `parent`, which
is negative outside all of them. -/
def readBlock? (literal : Bool) (parent : Int) (s : Source) : Option (List Char × Source) := do
  let (chomping, increment, s) ← readBlockHeader? s
  let indent ← match increment with
    | some n => some ((max parent 0).toNat + n)
    | none => (blockIndent? 0 s).map fun n => max n (max (parent + 1) 1).toNat
  blockFrom literal chomping indent {} s

end CommandSchema.Yaml
