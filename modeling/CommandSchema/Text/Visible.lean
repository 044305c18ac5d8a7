import CommandSchema.Text.HiddenTable
import CommandSchema.Text.Quoted

/-!
# Visible text

Text as a diagnostic shows it: between quotes, with an escape for every character that would not
be seen as itself. A character without a shape of its own is written by its code point, in
hexadecimal between braces, without leading zeros.

* `visible`: a text between double quotes.
* `visibleChar`: a character between single quotes.
-/

namespace CommandSchema.Text

/-- The character is written by its code point: a control, or a member of `hiddenRanges`. -/
def isHidden (c : Char) : Bool :=
  c.toNat < 0x20 || (0x7E < c.toNat && hiddenRanges.any fun r => r.1 ≤ c.toNat && c.toNat ≤ r.2)

/-- A character as it stands between quotes of the kind `mark`. -/
def showChar (mark c : Char) : List Char :=
  if c = '\x00' then ['\\', '0']
  else if c = '\t' then ['\\', 't']
  else if c = '\n' then ['\\', 'n']
  else if c = '\r' then ['\\', 'r']
  else if c = '\\' || c = mark then ['\\', c]
  else if isHidden c then
    ['\\', 'u', '\x7b'] ++ (Nat.toDigits 16 c.toNat) ++ ['\x7d']
  else [c]

/-- A text between double quotes. -/
def visible (s : String) : String :=
  .ofList ('\x22' :: s.toList.flatMap (showChar '\x22') ++ ['\x22'])

/-- A character between single quotes. -/
def visibleChar (c : Char) : String :=
  .ofList ('\x27' :: showChar '\x27' c ++ ['\x27'])

end CommandSchema.Text
