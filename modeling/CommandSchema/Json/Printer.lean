import CommandSchema.Json.Basic
import CommandSchema.Text.Quoted

/-!
# JSON as text

The two written forms of a JSON value.

* `Json.compact`: on one line, without a space.
* `Json.pretty`: one item or member a line, two spaces for every level, and a space after a colon;
  an empty array or object stays on its line.
-/

namespace CommandSchema.Json

/-- The digits of a natural number. -/
def naturalText (n : Nat) : List Char := Nat.toDigits 10 n

/-- An integer in decimal. -/
def integerText : Int → List Char
  | .ofNat n => naturalText n
  | .negSucc n => '-' :: naturalText (n + 1)

/-- The places after the point of the proper fraction `num / 2 ^ places`, all of them. -/
def fractionText (places num : Nat) : List Char :=
  let digits := naturalText (num * Nat.pow 5 places)
  List.replicate (places - digits.length) '0' ++ digits

/-- A number in decimal: a double is written with all its places, since a binary fraction has
finitely many. -/
def Number.text : Number → List Char
  | .integer n => integerText n
  | .real x =>
    (if x.negative then ['-'] else []) ++ naturalText (x.num / x.den) ++ '.' ::
      fractionText (max 1 (-x.exponent).toNat) (x.num % x.den)

/-- A text between quotes. -/
def stringText (s : String) : List Char := (Text.quote s).toList

mutual

/-- The value on one line. -/
def compactText : Json → List Char
  | .null => "null".toList
  | .boolean true => "true".toList
  | .boolean false => "false".toList
  | .number n => n.text
  | .string s => stringText s
  | .array items => '[' :: compactItems items ++ [']']
  | .object members => '\x7b' :: compactMembers members ++ ['\x7d']

/-- Items with commas between them. -/
def compactItems : List Json → List Char
  | [] => []
  | [v] => compactText v
  | v :: w :: items => compactText v ++ ',' :: compactItems (w :: items)

/-- Members with commas between them. -/
def compactMembers : List (String × Json) → List Char
  | [] => []
  | [(k, v)] => stringText k ++ ':' :: compactText v
  | (k, v) :: m :: members =>
    stringText k ++ ':' :: compactText v ++ ',' :: compactMembers (m :: members)

end

/-- The start of a line at a level. -/
def newLine (level : Nat) : List Char := '\n' :: List.replicate (2 * level) ' '

mutual

/-- The value over several lines, its first one at a level. -/
def prettyText (level : Nat) : Json → List Char
  | .array [] => "[]".toList
  | .array (v :: items) => '[' :: prettyItems (level + 1) (v :: items) ++ newLine level ++ [']']
  | .object [] => ['\x7b', '\x7d']
  | .object (m :: members) =>
    '\x7b' :: prettyMembers (level + 1) (m :: members) ++ newLine level ++ ['\x7d']
  | .null => "null".toList
  | .boolean true => "true".toList
  | .boolean false => "false".toList
  | .number n => n.text
  | .string s => stringText s

/-- Items on lines of their own. -/
def prettyItems (level : Nat) : List Json → List Char
  | [] => []
  | [v] => newLine level ++ prettyText level v
  | v :: w :: items => newLine level ++ prettyText level v ++ ',' :: prettyItems level (w :: items)

/-- Members on lines of their own. -/
def prettyMembers (level : Nat) : List (String × Json) → List Char
  | [] => []
  | [(k, v)] => newLine level ++ stringText k ++ ':' :: ' ' :: prettyText level v
  | (k, v) :: m :: members =>
    newLine level ++ stringText k ++ ':' :: ' ' :: prettyText level v ++
      ',' :: prettyMembers level (m :: members)

end

/-- The value on one line. -/
def compact (v : Json) : String := .ofList (compactText v)

/-- The value over several lines. -/
def pretty (v : Json) : String := .ofList (prettyText 0 v)

end CommandSchema.Json
