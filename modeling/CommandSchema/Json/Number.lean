import CommandSchema.Binary64

/-!
# Numbers of a JSON text

A number of a JSON text is kept as an integer if it is written as one and fits 64 bits, signed or
unsigned; every other number, and a zero with a minus sign, is a double.

* `Number.ofLiteral?`: the number that a literal writes, from its sign, digits and exponent.
* `Number.toDouble`: a number as a double.
* `Number.toInt32`: the integer part of a number in 32 bits, the high bits dropped.

A double is not read by one rounding. The leading digits that fit 64 bits make up the significand,
and further digits count only by their number; the significand is rounded to a double and then
scaled by powers of ten, with a rounding at every step.
-/

namespace CommandSchema.Json

/-- A number of a JSON text. -/
inductive Number where
  /-- An integer from `-2 ^ 63` to `2 ^ 64 - 1`. -/
  | integer (value : Int)
  /-- A finite double. -/
  | real (value : Binary64)
  deriving DecidableEq, Repr

namespace Number

/-- The largest significand. -/
def maxSignificand : Nat := Nat.pow 2 64 - 1

/-- One more than the largest signed integer. -/
def signedLimit : Nat := Nat.pow 2 63

/-- Appends digits to a significand while they fit; also gives how many did. -/
def takeDigits (significand : Nat) : List Nat → Nat × Nat
  | [] => (significand, 0)
  | d :: ds =>
    if significand * 10 + d ≤ maxSignificand then
      let (s, taken) := takeDigits (significand * 10 + d) ds
      (s, taken + 1)
    else (significand, 0)

/-- The double nearest to a power of ten. -/
def powerOfTen (k : Nat) : Binary64 := .ofNat (Nat.pow 10 k)

/-- Scales a double by a power of ten, in steps of at most `10 ^ 308`. -/
def scale? (x : Binary64) (exponent : Int) : Option Binary64 :=
  if exponent < -616 || x.isZero then some ⟨false, 0, Binary64.minExponent⟩
  else if exponent < -308 then
    some ((x.div (powerOfTen 308)).div (powerOfTen (-(exponent + 308)).toNat))
  else if exponent < 0 then some (x.div (powerOfTen (-exponent).toNat))
  else if 308 < exponent then none
  else
    let y := x.mul (powerOfTen exponent.toNat)
    if y.isFinite then some y else none

/-- The double of a significand and a power of ten; none where it would not be finite. -/
def real? (negative : Bool) (significand : Nat) (exponent : Int) : Option Number :=
  (scale? (.ofNat significand) exponent).map fun x => .real (if negative then x.neg else x)

/-- A number without fraction and exponent, from all its digits. -/
def ofDigits? (negative : Bool) (digits : List Nat) : Option Number :=
  let (significand, taken) := takeDigits 0 digits
  if taken < digits.length then real? negative significand (digits.length - taken)
  else if !negative then some (.integer significand)
  else if 0 < significand && significand ≤ signedLimit then some (.integer (-significand))
  else real? true significand 0

/-- The number of a literal: its sign, the digits before the point, those after it, and the power
of ten written after them. A literal with neither point nor exponent may be an integer. -/
def ofLiteral? (negative : Bool) (whole : List Nat) (fraction : Option (List Nat))
    (exponent : Option Int) : Option Number :=
  if fraction.isNone && exponent.isNone then ofDigits? negative whole
  else
    let (s, taken) := takeDigits 0 whole
    let (s, after) := takeDigits s (fraction.getD [])
    real? negative s ((whole.length - taken : Nat) - after + exponent.getD 0)

/-- The number as a signed integer of 64 bits, if it is kept as one. -/
def toInt64? : Number → Option Int64
  | .integer n => if n < signedLimit then some (.ofInt n) else none
  | .real _ => none

/-- The number as a double; an integer is rounded. -/
def toDouble : Number → Binary64
  | .integer n => .ofInt n
  | .real x => x

/-- The integer part in 32 bits, the high bits dropped. Only an integer beyond the signed 64-bit
range is rounded to a double first. -/
def toInt32 (n : Number) : Int32 :=
  match n.toInt64? with
  | some value => value.toInt32
  | none => n.toDouble.toInt32

/-- An integer of the signed 64-bit range is not rounded. -/
theorem toInt32_integer {n : Int} (h : n < signedLimit) : (integer n).toInt32 = .ofInt n := by
  have hkept : (integer n).toInt64? = some (.ofInt n) := if_pos h
  rw [toInt32, hkept]
  exact Int64.toInt32_ofInt

theorem toInt32_integer_of_le {n : Int} (h : signedLimit ≤ n) :
    (integer n).toInt32 = (Binary64.ofInt n).toInt32 := by
  have hkept : (integer n).toInt64? = none := if_neg (Int.not_lt.2 h)
  rw [toInt32, hkept]
  rfl

end Number

end CommandSchema.Json
