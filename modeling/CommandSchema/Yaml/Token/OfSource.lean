import CommandSchema.Yaml.Scalar
import CommandSchema.Yaml.Token.Property

/-!
# From characters to tokens

The tokens of a YAML text, one after the other. Columns open and close block collections; a token
that may turn out to be a key is remembered until a colon follows it or cannot follow any more,
and the tokens that belong in front of a key are put there afterwards.

* `Lexer.step?`: one token, with those that its column brings about.
* `Token.ofSource?`: all tokens of a text.
-/

namespace CommandSchema.Yaml

/-- A place that may turn out to be the start of a key. -/
structure KeyStart where
  /-- How many tokens stand before it. -/
  position : Nat
  /-- Nothing but a key can stand here. -/
  isRequired : Bool
  offset : Nat
  line : Nat
  column : Nat

/-- The state between two tokens. -/
structure Lexer where
  /-- What is left of the text. -/
  source : Source
  /-- The tokens so far. -/
  tokens : Array Token := #[]
  /-- The column of the innermost block collection, negative outside all of them. -/
  indent : Int := -1
  /-- The columns of the block collections around it, innermost first. -/
  outerIndents : List Int := []
  /-- A possible key at the innermost level of brackets. -/
  keyStart : Option KeyStart := none
  /-- The possible keys at the levels around it, innermost first. -/
  outerKeyStarts : List (Option KeyStart) := []
  /-- A key may start here. -/
  allowsKey : Bool := true

namespace Lexer

/-- The text stands between brackets or braces. -/
def inFlow (l : Lexer) : Bool := !l.outerKeyStarts.isEmpty

/-- The column of the next character. -/
def column (l : Lexer) : Nat := columnOf l.source

/-- Appends a token. -/
def push (l : Lexer) (t : Token) : Lexer := { l with tokens := l.tokens.push t }

/-- Puts a token behind the first `position` ones. -/
def insert (l : Lexer) (position : Nat) (t : Token) : Lexer :=
  let front := l.tokens.extract 0 position
  { l with tokens := front.push t ++ l.tokens.extract position l.tokens.size }

/-! ## White space -/

/-- The text from its next token on, and whether a key may start there: a new line allows it
outside brackets. Tabs are white space only where no key may start. -/
def skipToToken (inFlow allowsKey inComment : Bool) : Source → Bool × Source
  | [] => (allowsKey, [])
  | g :: s =>
    if isBreak g.char then skipToToken inFlow (allowsKey || !inFlow) false s
    else if isEnd g.char then (allowsKey, g :: s)
    else if inComment then skipToToken inFlow allowsKey true s
    else if g.char == '\ufeff' && g.offset == 0 then skipToToken inFlow allowsKey false s
    else if g.char == ' ' || (g.char == '\t' && (inFlow || !allowsKey)) then
      skipToToken inFlow allowsKey false s
    else if g.char == '#' then skipToToken inFlow allowsKey true s
    else (allowsKey, g :: s)

/-- The state before the next token. -/
def toNextToken (l : Lexer) : Lexer :=
  let (allowsKey, source) := skipToToken l.inFlow l.allowsKey false l.source
  { l with allowsKey, source }

/-! ## Possible keys -/

/-- The longest key, in characters. -/
def maxKeyLength : Nat := 1024

/-- A possible key as it is at a later place: gone if it is too far away or on an earlier line;
none at all if it was required. -/
def freshKey? (g : Glyph) : Option KeyStart → Option (Option KeyStart)
  | none => some none
  | some k =>
    if k.line < g.line || k.offset + maxKeyLength < g.offset then
      if k.isRequired then none else some none
    else some (some k)

/-- Forgets the possible keys that the next token is too far from. -/
def dropStaleKeys? (l : Lexer) : Option Lexer :=
  match l.source with
  | [] => some l
  | g :: _ => do
    let keyStart ← freshKey? g l.keyStart
    let outerKeyStarts ← l.outerKeyStarts.mapM (freshKey? g)
    return { l with keyStart, outerKeyStarts }

/-- Forgets the possible key of the innermost level, which must not be required. -/
def dropKey? (l : Lexer) : Option Lexer :=
  match l.keyStart with
  | some k => if k.isRequired then none else some { l with keyStart := none }
  | none => some l

/-- The possible key that starts at a character. It is required at the column of the innermost
block collection. -/
def keyAt (l : Lexer) (g : Glyph) : KeyStart :=
  { position := l.tokens.size, isRequired := !l.inFlow && l.indent == g.column,
    offset := g.offset, line := g.line, column := g.column }

/-- Remembers the next token as a possible key, if one may start here. -/
def saveKey? (l : Lexer) : Option Lexer :=
  match l.allowsKey, l.source with
  | true, g :: _ => do
    let l ← l.dropKey?
    return { l with keyStart := some (l.keyAt g) }
  | _, _ => some l

/-! ## Indentation -/

/-- Opens a block collection at a column if it lies further in than the innermost one; its token
goes behind the first `position` ones. -/
def openBlock (l : Lexer) (column : Nat) (position : Nat) (t : Token) : Lexer :=
  if !l.inFlow && l.indent < column then
    { l.insert position t with indent := column, outerIndents := l.indent :: l.outerIndents }
  else l

/-- Closes the block collections that lie further in than a column; `outer` are the columns around
the innermost one. -/
def closeBlocksFrom (l : Lexer) (column : Int) : List Int → Lexer
  | [] => l
  | i :: outer =>
    if column < l.indent then
      closeBlocksFrom { l.push .blockEnd with indent := i, outerIndents := outer } column outer
    else l

/-- Closes the block collections that lie further in than a column. -/
def closeBlocks (l : Lexer) (column : Int) : Lexer :=
  if l.inFlow then l else l.closeBlocksFrom column l.outerIndents

/-! ## Tokens -/

/-- Passes characters of the next line of text and appends the token that they are. -/
def take (l : Lexer) (n : Nat) (t : Token) : Lexer := { l with source := l.source.drop n }.push t

/-- A line that starts or ends a document. -/
def documentMarker? (l : Lexer) (t : Token) : Option Lexer := do
  let l ← (l.closeBlocks (-1)).dropKey?
  return { l with allowsKey := false }.take 3 t

/-- A directive. -/
def directive? (l : Lexer) : Option Lexer := do
  let l ← (l.closeBlocks (-1)).dropKey?
  let (t, source) ← readDirective? l.source
  return { l with allowsKey := false, source }.push t

/-- An opening bracket or brace. -/
def openFlow? (l : Lexer) (t : Token) : Option Lexer := do
  let l ← l.saveKey?
  return { l with
    keyStart := none, outerKeyStarts := l.keyStart :: l.outerKeyStarts, allowsKey := true }.take 1 t

/-- A closing bracket or brace. -/
def closeFlow? (l : Lexer) (t : Token) : Option Lexer := do
  let l ← l.dropKey?
  let l := match l.outerKeyStarts with
    | [] => l
    | k :: outer => { l with keyStart := k, outerKeyStarts := outer }
  return { l with allowsKey := false }.take 1 t

/-- A comma. -/
def flowEntry? (l : Lexer) : Option Lexer := do
  let l ← l.dropKey?
  return { l with allowsKey := true }.take 1 .flowEntry

/-- A hyphen in front of an item. -/
def blockEntry? (l : Lexer) : Option Lexer := do
  if !l.inFlow && !l.allowsKey then none
  let l ← (l.openBlock l.column l.tokens.size .blockSequenceStart).dropKey?
  return { l with allowsKey := true }.take 1 .blockEntry

/-- A question mark in front of a key. -/
def explicitKey? (l : Lexer) : Option Lexer := do
  if !l.inFlow && !l.allowsKey then none
  let l ← (l.openBlock l.column l.tokens.size .blockMappingStart).dropKey?
  return { l with allowsKey := !l.inFlow }.take 1 .key

/-- A colon in front of a value. A possible key becomes a key, and opens a block mapping if it lies
further in than the innermost block collection. -/
def value? (l : Lexer) : Option Lexer :=
  match l.keyStart with
  | some k =>
    let l := (l.insert k.position .key).openBlock k.column k.position .blockMappingStart
    some ({ l with keyStart := none, allowsKey := false }.take 1 .value)
  | none =>
    if !l.inFlow && !l.allowsKey then none
    else
      let l := l.openBlock l.column l.tokens.size .blockMappingStart
      some ({ l with allowsKey := !l.inFlow }.take 1 .value)

/-- An anchor or an alias. -/
def name? (l : Lexer) (t : String → Token) : Option Lexer := do
  let l ← l.saveKey?
  let (name, source) ← readName? (l.source.drop 1)
  return { l with allowsKey := false, source }.push (t name)

/-- A tag. -/
def tag? (l : Lexer) : Option Lexer := do
  let l ← l.saveKey?
  let (t, source) ← readTag? l.inFlow l.source
  return { l with allowsKey := false, source }.push t

/-- A block scalar. -/
def blockScalar? (l : Lexer) (literal : Bool) : Option Lexer := do
  let l ← l.dropKey?
  let (text, source) ← readBlock? literal l.indent (l.source.drop 1)
  return { l with allowsKey := true, source }.push (.scalar false (.ofList text))

/-- A quoted scalar. -/
def quotedScalar? (l : Lexer) (single : Bool) : Option Lexer := do
  let l ← l.saveKey?
  let (text, source) ← readQuoted? single (l.source.drop 1)
  return { l with allowsKey := false, source }.push (.scalar false (.ofList text))

/-- A plain scalar. A key may follow it on a new line. -/
def plainScalar? (l : Lexer) : Option Lexer := do
  let l ← l.saveKey?
  let (text, isBroken, source) ← readPlain? l.inFlow (l.indent + 1).toNat l.source
  return { l with allowsKey := isBroken, source }.push (.scalar true (.ofList text))

/-- A character that no plain scalar starts with. -/
def isIndicator (c : Char) : Bool :=
  isFlowMark c || c == '-' || c == '?' || c == ':' || c == '#' || c == '&' || c == '*' ||
    c == '!' || c == '|' || c == '>' || c == '\x27' || c == '\x22' || c == '%' || c == '@' ||
    c == '\x60'

/-- A plain scalar starts with the character `c` if `next` follows it. -/
def startsPlain (inFlow : Bool) (c next : Char) : Bool :=
  (!endsWord c && !isIndicator c) || (c == '-' && !isGapChar next) ||
    (!inFlow && (c == '?' || c == ':') && !endsWord next)

/-- The end of the text: all block collections end, and no key may be outstanding. -/
def finish? (l : Lexer) : Option (Array Token) :=
  (l.closeBlocks (-1)).dropKey?.map (·.tokens)

/-- The next token, from its first character on. -/
def token? (l : Lexer) : Option Lexer :=
  let c := peek l.source 0
  let next := peek l.source 1
  if l.column == 0 && c == '%' then l.directive?
  else if isMarker '-' l.source then l.documentMarker? .documentStart
  else if isMarker '.' l.source then l.documentMarker? .documentEnd
  else if c == '[' then l.openFlow? .flowSequenceStart
  else if c == '\x7b' then l.openFlow? .flowMappingStart
  else if c == ']' then l.closeFlow? .flowSequenceEnd
  else if c == '\x7d' then l.closeFlow? .flowMappingEnd
  else if c == ',' then l.flowEntry?
  else if c == '-' && endsWord next then l.blockEntry?
  else if c == '?' && (l.inFlow || endsWord next) then l.explicitKey?
  else if c == ':' && (l.inFlow || endsWord next) then l.value?
  else if c == '*' then l.name? .alias
  else if c == '&' then l.name? .anchor
  else if c == '!' then l.tag?
  else if c == '|' && !l.inFlow then l.blockScalar? true
  else if c == '>' && !l.inFlow then l.blockScalar? false
  else if c == '\x27' then l.quotedScalar? true
  else if c == '\x22' then l.quotedScalar? false
  else if startsPlain l.inFlow c next then l.plainScalar?
  else none

/-- The state before the next token, with the block collections closed that end there. -/
def settle? (l : Lexer) : Option Lexer := do
  let l ← l.toNextToken.dropStaleKeys?
  return l.closeBlocks l.column

/-- The tokens from a state on. Every token takes a character, so the number of characters is fuel
enough. -/
def run? (fuel : Nat) (l : Lexer) : Option (Array Token) :=
  match fuel with
  | 0 => none
  | fuel + 1 =>
    match l.settle? with
    | none => none
    | some l =>
      if isEnd (peek l.source 0) then l.finish?
      else match l.token? with
        | none => none
        | some l => run? fuel l

end Lexer

/-- The tokens of a text. -/
def Token.ofSource? (s : Source) : Option (List Token) :=
  (Lexer.run? (s.length + 1) { source := s }).map (·.toList)

end CommandSchema.Yaml
