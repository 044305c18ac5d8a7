import CommandSchema.Binary64
import CommandSchema.Text.Quoted

/-!
# The kinds of plain scalars

A scalar without quotes is what its text looks like: nothing, a boolean, a number, or else text.

* `parseBoolean?`, `isNullWord`, `parseFloat?`: the words and numbers of each kind.
* `parseInteger?`: the integers, in decimal, or in another base after `0x`, `0o` or `0b`. One of
  more than 64 bits and up to 128 is an integer that cannot be held; one beyond that is none.
* `Plain.ofText`: the kind of a text.
-/

namespace CommandSchema.Yaml

/-- A number of a YAML document. -/
inductive Number where
  /-- An integer from `-2 ^ 63` to `2 ^ 64 - 1`. -/
  | integer (value : Int)
  | real (value : Binary64)
  | infinity (negative : Bool)
  | nan
  deriving DecidableEq, Repr

/-- The same number; an integer and a real number never are. -/
def Number.same : Number → Number → Bool
  | .real x, .real y => x.same y
  | a, b => a == b

/-- A boolean as one of its words. -/
def parseBoolean? (text : String) : Option Bool :=
  if ["true", "True", "TRUE"].contains text then some true
  else if ["false", "False", "FALSE"].contains text then some false
  else none

/-- A word for nothing. -/
def isNullWord (text : String) : Bool := ["null", "Null", "NULL", "~"].contains text

/-! ## Integers -/

/-- The number that digits of a base write; none without a digit. -/
def parseDigits? (base : Nat) : List Char → Option Nat
  | [] => none
  | cs => cs.foldlM (fun n c => do
      let d ← Text.hexValue? c
      if d < base then some (n * base + d) else none) 0

/-- The text without the plus sign at its start. -/
def dropPlus : List Char → List Char
  | '+' :: cs => cs
  | cs => cs

/-- The text without the sign at its start. -/
def dropSign : List Char → List Char
  | '+' :: cs => cs
  | '-' :: cs => cs
  | cs => cs

/-- Digits that start with a zero and go on, with or without a sign: they write no number. -/
def isZeroPadded (cs : List Char) : Bool :=
  match dropSign cs with
  | '0' :: c :: cs => (c :: cs).all Char.isDigit
  | _ => false

/-- A natural number in any base, without a sign. -/
def parseNatural? : List Char → Option Nat
  | '0' :: 'x' :: cs => parseDigits? 16 cs
  | '0' :: 'o' :: cs => parseDigits? 8 cs
  | '0' :: 'b' :: cs => parseDigits? 2 cs
  | cs => parseDigits? 10 cs

/-- What an integer comes to. -/
inductive IntegerFit where
  /-- It fits 64 bits. -/
  | fits (value : Int)
  /-- It is an integer, and cannot be held. -/
  | tooLarge
  /-- It is no integer. -/
  | none
  deriving DecidableEq, Repr

/-- An integer that is not negative. -/
def IntegerFit.ofNatural (n : Nat) : IntegerFit :=
  if n < Nat.pow 2 64 then .fits n else if n < Nat.pow 2 128 then .tooLarge else .none

/-- The negative of a natural number. -/
def IntegerFit.ofNegated (n : Nat) : IntegerFit :=
  if n ≤ Nat.pow 2 63 then .fits (-n) else if n ≤ Nat.pow 2 127 then .tooLarge else .none

/-- A text as an integer. -/
def parseInteger (text : String) : IntegerFit :=
  let cs := text.toList
  if isZeroPadded cs then .none
  else match cs with
    | '-' :: cs =>
      match parseNatural? cs with
      | some n => .ofNegated n
      | none => .none
    | cs =>
      match parseNatural? (dropPlus cs) with
      | some n => .ofNatural n
      | none => .none

/-! ## Floats -/

/-- The digits before and after a point, as one number and the count of those after it. -/
def parseMantissa? (cs : List Char) : Option (Nat × Nat) :=
  let (whole, rest) := cs.span Char.isDigit
  let fraction? := match rest with
    | [] => some []
    | '.' :: cs => if cs.all Char.isDigit then some cs else none
    | _ => none
  match fraction? with
  | none => none
  | some fraction => (parseDigits? 10 (whole ++ fraction)).map fun n => (n, fraction.length)

/-- An exponent: decimal digits after a sign or none. -/
def parseExponent? : List Char → Option Int
  | '-' :: cs => (parseDigits? 10 cs).map fun n => -n
  | cs => (parseDigits? 10 (dropPlus cs)).map fun n => n

/-- A decimal without a sign: digits with at most one point among or around them, and an exponent
or none. -/
def parseDecimal? (negative : Bool) (cs : List Char) : Option Binary64 :=
  let (mantissa, rest) := cs.span fun c => c != 'e' && c != 'E'
  match parseMantissa? mantissa with
  | none => none
  | some (n, places) =>
    match rest with
    | [] => some (.ofDecimal negative n (-places))
    | _ :: cs => (parseExponent? cs).map fun e => .ofDecimal negative n (e - places)

/-- A word for infinity, without a sign. -/
def isInfinityWord (text : String) : Bool := [".inf", ".Inf", ".INF"].contains text

/-- A word for what is no number. -/
def isNanWord (text : String) : Bool := [".nan", ".NaN", ".NAN"].contains text

/-- A text as a float; a decimal beyond the finite doubles is none. -/
def parseFloat? (text : String) : Option Number :=
  if isNanWord text then some .nan
  else
    let (negative, cs) := match text.toList with
      | '-' :: cs => (true, cs)
      | cs => (false, dropPlus cs)
    if isInfinityWord (.ofList cs) then some (.infinity negative)
    else match parseDecimal? negative cs with
      | none => none
      | some x => if x.isFinite then some (.real x) else none

/-! ## Kinds -/

/-- What a plain scalar is. -/
inductive Plain where
  | null
  | boolean (value : Bool)
  | number (value : Number)
  /-- An integer that cannot be held. -/
  | tooLarge
  | text
  deriving DecidableEq, Repr

/-- What the text of a plain scalar looks like. -/
def Plain.ofText (text : String) : Plain :=
  if text.isEmpty || isNullWord text then .null
  else match parseBoolean? text with
    | some b => .boolean b
    | none =>
      match parseInteger text with
      | .fits n => .number (.integer n)
      | .tooLarge => .tooLarge
      | .none =>
        if isZeroPadded text.toList then .text
        else match parseFloat? text with
          | some x => .number x
          | none => .text

end CommandSchema.Yaml
