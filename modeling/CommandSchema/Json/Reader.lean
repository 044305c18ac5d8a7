import CommandSchema.Json.Basic
import CommandSchema.Text.Quoted

/-!
# Reading JSON

The strict grammar of JSON: one value, nothing but white space around it. Of equal keys in an
object the last one counts. Arrays and objects may lie 127 deep.

* `Json.read?`: the value that a text writes.
-/

namespace CommandSchema.Json

/-- White space between the parts of a JSON text. -/
def isSpace (c : Char) : Bool := c == ' ' || c == '\n' || c == '\t' || c == '\r'

/-- The text from its first character that is no white space. -/
def skipSpace (cs : List Char) : List Char := cs.dropWhile isSpace

/-- The values of the decimal digits that a text starts with, and the text after them. -/
def spanDigits (cs : List Char) : List Nat × List Char :=
  let (digits, rest) := cs.span Char.isDigit
  (digits.map fun c => c.toNat - 0x30, rest)

/-- The number that decimal digits write. -/
def ofDigits (digits : List Nat) : Nat := digits.foldl (fun n d => n * 10 + d) 0

/-- The digits before the point: a zero stands alone. -/
def readWhole? (cs : List Char) : Option (List Nat × List Char) :=
  match spanDigits cs with
  | ([], _) => none
  | (0 :: _ :: _, _) => none
  | r => some r

/-- The digits after a point, if there is one. -/
def readFraction? : List Char → Option (Option (List Nat) × List Char)
  | '.' :: cs =>
    match spanDigits cs with
    | ([], _) => none
    | (digits, cs) => some (some digits, cs)
  | cs => some (none, cs)

/-- The digits of an exponent after its sign. -/
def readExponentDigits? (negative : Bool) (cs : List Char) : Option (Option Int × List Char) :=
  match spanDigits cs with
  | ([], _) => none
  | (digits, cs) =>
    let n : Int := ofDigits digits
    some (some (if negative then -n else n), cs)

/-- The exponent after an `e` of either case, if there is one. -/
def readExponent? : List Char → Option (Option Int × List Char)
  | c :: cs =>
    if c = 'e' || c = 'E' then
      match cs with
      | '-' :: cs => readExponentDigits? true cs
      | '+' :: cs => readExponentDigits? false cs
      | cs => readExponentDigits? false cs
    else some (none, c :: cs)
  | [] => some (none, [])

/-- A number after its sign. -/
def readMagnitude? (negative : Bool) (cs : List Char) : Option (Json × List Char) := do
  let (whole, cs) ← readWhole? cs
  let (fraction, cs) ← readFraction? cs
  let (exponent, cs) ← readExponent? cs
  let n ← Number.ofLiteral? negative whole fraction exponent
  return (.number n, cs)

/-- A value without parts: a word, a text or a number. -/
def readScalar? : List Char → Option (Json × List Char)
  | 'n' :: 'u' :: 'l' :: 'l' :: cs => some (.null, cs)
  | 't' :: 'r' :: 'u' :: 'e' :: cs => some (.boolean true, cs)
  | 'f' :: 'a' :: 'l' :: 's' :: 'e' :: cs => some (.boolean false, cs)
  | '\x22' :: cs => (Text.unquote? cs).map fun (s, cs) => (.string (.ofList s), cs)
  | '-' :: cs => readMagnitude? true cs
  | cs => readMagnitude? false cs

/-- The members without those whose key occurs again later. -/
def keepLast : List (String × Json) → List (String × Json)
  | [] => []
  | m :: members =>
    if members.any fun n => n.1 == m.1 then keepLast members else m :: keepLast members

/-- A key and the colon after it. -/
def readKey? (cs : List Char) : Option (String × List Char) :=
  match skipSpace cs with
  | '\x22' :: cs =>
    match Text.unquote? cs with
    | none => none
    | some (key, cs) =>
      match skipSpace cs with
      | ':' :: cs => some (.ofList key, cs)
      | _ => none
  | _ => none

mutual

/-- Reads a value. Every call, and every item or member of a list, takes one of `fuel`; `depth` is
how many arrays and objects may still be entered. -/
def readValue? (fuel depth : Nat) (cs : List Char) : Option (Json × List Char) :=
  match fuel with
  | 0 => none
  | fuel + 1 =>
    match skipSpace cs with
    | '[' :: cs =>
      if depth = 0 then none
      else match skipSpace cs with
        | ']' :: cs => some (.array [], cs)
        | cs => (readItems? fuel (depth - 1) cs).map fun (items, cs) => (.array items, cs)
    | '\x7b' :: cs =>
      if depth = 0 then none
      else match skipSpace cs with
        | '\x7d' :: cs => some (.object [], cs)
        | cs => (readMembers? fuel (depth - 1) cs).map fun (members, cs) =>
          (.object (keepLast members), cs)
    | cs => readScalar? cs

/-- Reads the items of an array and its closing bracket. -/
def readItems? (fuel depth : Nat) (cs : List Char) : Option (List Json × List Char) :=
  match fuel with
  | 0 => none
  | fuel + 1 =>
    match readValue? fuel depth cs with
    | none => none
    | some (v, cs) =>
      match skipSpace cs with
      | ']' :: cs => some ([v], cs)
      | ',' :: cs => (readItems? fuel depth cs).map fun (items, cs) => (v :: items, cs)
      | _ => none

/-- Reads the members of an object and its closing brace. -/
def readMembers? (fuel depth : Nat) (cs : List Char) :
    Option (List (String × Json) × List Char) :=
  match fuel with
  | 0 => none
  | fuel + 1 =>
    match readKey? cs with
    | none => none
    | some (key, cs) =>
      match readValue? fuel depth cs with
      | none => none
      | some (v, cs) =>
        match skipSpace cs with
        | '\x7d' :: cs => some ([(key, v)], cs)
        | ',' :: cs =>
          (readMembers? fuel depth cs).map fun (members, cs) => ((key, v) :: members, cs)
        | _ => none

end

/-- How many arrays and objects may lie in one another. -/
def maxDepth : Nat := 127

/-- The value that a text writes. Every call of the readers but the innermost one of a chain takes
a character, so twice the length of the text is fuel enough. -/
def read? (text : String) : Option Json :=
  let cs := text.toList
  match readValue? (2 * cs.length + 2) maxDepth cs with
  | none => none
  | some (v, rest) => if skipSpace rest = [] then some v else none

end CommandSchema.Json
