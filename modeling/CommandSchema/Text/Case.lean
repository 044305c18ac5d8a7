import CommandSchema.Text.CaseTable
import CommandSchema.Text.Pieces

/-!
# The case of names

Command names are written in words joined by underscores; the names derived from them change the
case of first letters only.

* `capitalize`: the text with its first character in upper case.
* `pascal`: every word capitalized, the underscores gone (`add_user` gives `AddUser`).
* `camel`: the same with its first character in lower case (`addUser`).

The case mappings are the full ones of Unicode, so one character may become several.
-/

namespace CommandSchema.Text

/-- The single mapping of a code point beyond ASCII: itself where no run holds it. -/
def shiftCase (runs : List CaseRun) (c : Char) : Char :=
  match runs.find? (·.holds c.toNat) with
  | some run => .ofNat (c.toNat + run.shift).toNat
  | none => c

/-- The full mapping of a code point beyond ASCII: its spelling if it has one. -/
def fullCase (runs : List CaseRun) (spellings : List (Nat × List Nat)) (c : Char) : List Char :=
  match spellings.lookup c.toNat with
  | some points => points.map Char.ofNat
  | none => [shiftCase runs c]

/-- A character in upper case. -/
def upper (c : Char) : List Char :=
  if c.toNat < 0x80 then [c.toUpper] else fullCase upperRuns upperSpellings c

/-- A character in lower case. -/
def lower (c : Char) : List Char :=
  if c.toNat < 0x80 then [c.toLower] else fullCase lowerRuns lowerSpellings c

/-- The text with its first character replaced. -/
def mapFirst (f : Char → List Char) : List Char → List Char
  | [] => []
  | c :: cs => f c ++ cs

/-- The text with its first character in upper case. -/
def capitalize (s : String) : String := .ofList (mapFirst upper s.toList)

/-- The words between underscores, each with its first character in upper case. -/
def pascal (s : String) : String :=
  .ofList ((pieces '_' s.toList).flatMap (mapFirst upper))

/-- `pascal` with its first character in lower case. -/
def camel (s : String) : String := .ofList (mapFirst lower (pascal s).toList)

end CommandSchema.Text
