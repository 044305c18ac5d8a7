import CommandSchema.Text.Quoted
import CommandSchema.Yaml.Source
import CommandSchema.Yaml.Token

/-!
# Anchors, tags and directives

The tokens that say something about a node or a document, each read from its indicator on.

* `readName?`: the name of an anchor or an alias.
* `readTag?`: a tag, written in full, with a handle, or alone.
* `readDirective?`: the version directive or the handle directive.
-/

namespace CommandSchema.Yaml

/-! ## Anchors -/

/-- A character that may follow the name of an anchor or an alias. -/
def endsName (c : Char) : Bool :=
  endsWord c || c == '?' || c == ':' || c == ',' || c == ']' || c == '\x7d' || c == '%' ||
    c == '@' || c == '\x60'

/-- The name of an anchor or an alias after its indicator. -/
def readName? (s : Source) : Option (String × Source) :=
  let (name, s) := spanWhile isNameChar s
  if name.isEmpty || !endsName (peek s 0) then none else some (.ofList name, s)

/-! ## Tags -/

/-- A character that may stand in a tag as it is; commas and brackets only where `wide` is set. -/
def isTagChar (wide : Bool) (c : Char) : Bool :=
  isNameChar c || c == ';' || c == '/' || c == '?' || c == ':' || c == '@' || c == '&' ||
    c == '=' || c == '+' || c == '$' || c == '.' || c == '!' || c == '~' || c == '*' ||
    c == '\x27' || c == '(' || c == ')' || (wide && (c == ',' || c == '[' || c == ']'))

/-- How many octets follow the first octet of a character. -/
def following? (n : Nat) : Option Nat :=
  if n < 0x80 then some 0
  else if 0xC0 ≤ n && n < 0xE0 then some 1
  else if 0xE0 ≤ n && n < 0xF0 then some 2
  else if 0xF0 ≤ n && n < 0xF8 then some 3
  else none

/-- How many octets are missing after one more, when `missing` were missing before it. -/
def missingAfter? (missing n : Nat) : Option Nat :=
  if missing = 0 then following? n
  else if 0x80 ≤ n && n < 0xC0 then some (missing - 1)
  else none

/-- Reads on in the text of a tag, whose last character still wants `missing` octets; `done` is
the text so far, last octet first. -/
def tagFrom (wide : Bool) (missing : Nat) (done : Octets) : Source → Option (Octets × Source)
  | [] => none
  | g :: s =>
    if g.char = '%' then
      match s with
      | a :: b :: s =>
        match Text.hexValue? a.char, Text.hexValue? b.char with
        | some high, some low =>
          match missingAfter? missing (high * 16 + low) with
          | none => none
          | some missing => tagFrom wide missing (.ofNat (high * 16 + low) :: done) s
        | _, _ => none
      | _ => none
    else if missing ≠ 0 then none
    else if isTagChar wide g.char then tagFrom wide 0 (.ofNat g.char.toNat :: done) s
    else some (done.reverse, g :: s)

/-- The text of a tag. It counts up to its first NUL only. -/
def readTagText? (wide : Bool) (s : Source) : Option (Octets × Source) :=
  (tagFrom wide 0 [] s).map fun (text, s) => (text.takeWhile (· != 0), s)

/-- The text of a tag that has at least one character. -/
def readFilledTagText? (wide : Bool) (s : Source) : Option (Octets × Source) :=
  if peek s 0 == '%' || isTagChar wide (peek s 0) then readTagText? wide s else none

/-- An ASCII text as octets. -/
def octets (cs : List Char) : Octets := cs.map fun c => .ofNat c.toNat

/-- The exclamation marks and the name between them at the start of a tag, and whether a second
mark closed the name. -/
def readHandle (s : Source) : List Char × Bool × Source :=
  let (name, s) := spanWhile isNameChar (s.drop 1)
  if peek s 0 = '!' then ('!' :: name ++ ['!'], true, s.drop 1) else ('!' :: name, false, s)

/-- A tag with a handle, or with the one-mark handle that is no part of its text. -/
def readShortTag? (s : Source) : Option (Token × Source) :=
  let (handle, isClosed, s) := readHandle s
  if isClosed then
    (readFilledTagText? false s).map fun (rest, s) => (.tag (.ofList handle) rest, s)
  else
    (readTagText? false s).map fun (more, s) =>
      let rest := octets (handle.drop 1) ++ more
      (if rest.isEmpty then .tag "" (octets handle) else .tag "!" rest, s)

/-- A tag between angle brackets. -/
def readFullTag? (s : Source) : Option (Token × Source) :=
  match readFilledTagText? true (s.drop 2) with
  | none => none
  | some (text, s) => if peek s 0 = '>' then some (.tag "" text, s.drop 1) else none

/-- A tag from its exclamation mark on. White space follows it, or a comma where commas separate
items. -/
def readTag? (inFlow : Bool) (s : Source) : Option (Token × Source) :=
  match if peek s 1 = '<' then readFullTag? s else readShortTag? s with
  | none => none
  | some (t, s) =>
    if endsWord (peek s 0) || (inFlow && peek s 0 == ',') then some (t, s) else none

/-! ## Directives -/

/-- The most digits of a version number. -/
def maxVersionDigits : Nat := 9

/-- A part of a version number. -/
def readVersionPart? (s : Source) : Option (Nat × Source) :=
  let (digits, s) := spanWhile Char.isDigit s
  if digits.isEmpty || maxVersionDigits < digits.length then none
  else some (digits.foldl (fun n c => n * 10 + (c.toNat - 0x30)) 0, s)

/-- The value of the version directive. -/
def readVersion? (s : Source) : Option (Token × Source) := do
  let (major, s) ← readVersionPart? (skipWhile isGapChar s)
  if peek s 0 ≠ '.' then none
  let (minor, s) ← readVersionPart? (s.drop 1)
  return (.version major minor, s)

/-- The value of the handle directive: a handle, white space, and the start of its tags. -/
def readHandleMeaning? (s : Source) : Option (Token × Source) := do
  let s := skipWhile isGapChar s
  if peek s 0 ≠ '!' then none
  let (handle, isClosed, s) := readHandle s
  if !isClosed && handle ≠ ['!'] then none
  if !isGapChar (peek s 0) then none
  let (meaning, s) ← readFilledTagText? true (skipWhile isGapChar s)
  if !endsWord (peek s 0) then none
  return (.handle (.ofList handle) meaning, s)

/-- A directive from its percent sign on, and the rest of its line. -/
def readDirective? (s : Source) : Option (Token × Source) := do
  let (name, s) := spanWhile isNameChar (s.drop 1)
  if !endsWord (peek s 0) then none
  let (t, s) ← match String.ofList name with
    | "YAML" => readVersion? s
    | "TAG" => readHandleMeaning? s
    | _ => none
  let s ← skipLineEnd? s
  return (t, s)

end CommandSchema.Yaml
