/-!
# Quoted text

Text between double quotes as JSON has it. Written, a text has one form: the quote, the backslash
and the controls are escaped, the short escape where there is one, and everything else stands as
it is. Read, every escape of JSON is understood.

* `quote`: the written form.
* `unquote?`: reads a written form up to its closing quote; the other half is the text after it.
-/

namespace CommandSchema.Text

/-- The digit of a number below sixteen, in lower case. -/
def hexDigit (n : Nat) : Char :=
  if n < 10 then .ofNat (0x30 + n) else .ofNat (0x57 + n)

/-- The value of a hexadecimal digit of either case. -/
def hexValue? (c : Char) : Option Nat :=
  if '0' ≤ c ∧ c ≤ '9' then some (c.toNat - 0x30)
  else if 'a' ≤ c ∧ c ≤ 'f' then some (c.toNat - 0x57)
  else if 'A' ≤ c ∧ c ≤ 'F' then some (c.toNat - 0x37)
  else none

/-- One character of a quoted text, as it is written. -/
def quoteChar (c : Char) : List Char :=
  if c = '\x22' then ['\\', '\x22']
  else if c = '\\' then ['\\', '\\']
  else if c = '\x08' then ['\\', 'b']
  else if c = '\x0c' then ['\\', 'f']
  else if c = '\n' then ['\\', 'n']
  else if c = '\r' then ['\\', 'r']
  else if c = '\t' then ['\\', 't']
  else if c.toNat < 0x20 then
    ['\\', 'u', '0', '0', hexDigit (c.toNat / 16), hexDigit (c.toNat % 16)]
  else [c]

/-- The characters between the quotes. -/
def quoteBody (cs : List Char) : List Char := cs.flatMap quoteChar

/-- A text as a quoted literal. -/
def quote (s : String) : String :=
  .ofList ('\x22' :: quoteBody s.toList ++ ['\x22'])

/-- The character that a one-letter escape stands for. -/
def shortEscape? (c : Char) : Option Char :=
  match c with
  | '\x22' => some '\x22'
  | '\\' => some '\\'
  | '/' => some '/'
  | 'b' => some '\x08'
  | 'f' => some '\x0c'
  | 'n' => some '\n'
  | 'r' => some '\r'
  | 't' => some '\t'
  | _ => none

/-- The number that four hexadecimal digits write. -/
def hexUnit? (a b c d : Char) : Option Nat := do
  let a ← hexValue? a
  let b ← hexValue? b
  let c ← hexValue? c
  let d ← hexValue? d
  return ((a * 16 + b) * 16 + c) * 16 + d

/-- The unit opens a surrogate pair. -/
def isHighSurrogate (n : Nat) : Bool := 0xD800 ≤ n && n ≤ 0xDBFF

/-- The unit closes a surrogate pair. -/
def isLowSurrogate (n : Nat) : Bool := 0xDC00 ≤ n && n ≤ 0xDFFF

/-- Reads the text after an opening quote up to the closing one. `done` holds what has been read,
last character first. A raw control and a surrogate without its partner are refused. -/
def unquoteFrom (done : List Char) : List Char → Option (List Char × List Char)
  | [] => none
  | '\x22' :: cs => some (done.reverse, cs)
  | '\\' :: 'u' :: a :: b :: c :: d :: cs =>
    match hexUnit? a b c d with
    | none => none
    | some n =>
      if isLowSurrogate n then none
      else if isHighSurrogate n then
        match cs with
        | '\\' :: 'u' :: e :: f :: g :: h :: cs =>
          match hexUnit? e f g h with
          | none => none
          | some m =>
            if isLowSurrogate m then
              unquoteFrom (.ofNat ((n - 0xD800) * 0x400 + (m - 0xDC00) + 0x10000) :: done) cs
            else none
        | _ => none
      else unquoteFrom (.ofNat n :: done) cs
  | '\\' :: c :: cs =>
    match shortEscape? c with
    | none => none
    | some e => unquoteFrom (e :: done) cs
  | c :: cs => if c.toNat < 0x20 || c == '\\' then none else unquoteFrom (c :: done) cs

/-- The text of a quoted literal whose opening quote has been read, and what follows it. -/
def unquote? (cs : List Char) : Option (List Char × List Char) := unquoteFrom [] cs

end CommandSchema.Text
