/-!
# Double precision, exactly

Binary floating-point numbers of 53 bits as integers times powers of two, with every rounding done
on exact ratios: to the nearest number, a tie to the even mantissa.

* `Binary64.nearest`: the number nearest to a ratio. The exponent has no upper limit here;
  `isFinite` says whether the number fits the format.
* `Binary64.mul`, `Binary64.div`, `Binary64.add`: one rounding each.
* `Binary64.ofDecimal`: the number nearest to a decimal.
* `Binary64.trunc`, `Binary64.rem`, `Binary64.remEuclid`: integer parts and remainders.
* `Binary64.toUInt32`, `Binary64.toInt32`: the integer part in 32 bits, held at the ends of the range
  without a sign, and with the high bits dropped with one.
-/

namespace CommandSchema

/-- The number `mantissa * 2 ^ exponent`, negated if `negative` is set. -/
structure Binary64 where
  negative : Bool
  mantissa : Nat
  exponent : Int
  deriving DecidableEq, Repr

namespace Binary64

/-- The exponent of the smallest numbers. -/
def minExponent : Int := -1074

/-- The largest exponent of a finite number in normal form. -/
def maxExponent : Int := 971

/-- A quotient rounded to the nearest natural number, a tie to the even one. -/
def roundQuotient (num den : Nat) : Nat :=
  let q := num / den
  let r := num % den
  if 2 * r < den || (2 * r == den && q % 2 == 0) then q else q + 1

/-- A ratio over `2 ^ e`, as a ratio of natural numbers. -/
def scaleRatio (num den : Nat) (e : Int) : Nat × Nat :=
  (num * Nat.pow 2 (-e).toNat, den * Nat.pow 2 e.toNat)

/-- The exponent of the numbers around a positive ratio: the one that gives its mantissa 53 bits,
unless the ratio is among the smallest. -/
def ratioExponent (num den : Nat) : Int :=
  let e : Int := (num.log2 : Int) - den.log2 - 53
  let (n, d) := scaleRatio num den e
  max minExponent (if n / d < Nat.pow 2 53 then e else e + 1)

/-- The number nearest to a ratio, in normal form. -/
def nearest (negative : Bool) (num den : Nat) : Binary64 :=
  if num = 0 then ⟨negative, 0, minExponent⟩
  else
    let e := ratioExponent num den
    let (n, d) := scaleRatio num den e
    let m := roundQuotient n d
    if m = Nat.pow 2 53 then ⟨negative, Nat.pow 2 52, e + 1⟩ else ⟨negative, m, e⟩

/-- The number fits the format. -/
def isFinite (x : Binary64) : Bool := x.exponent ≤ maxExponent

/-- The number is zero, of either sign. -/
def isZero (x : Binary64) : Bool := x.mantissa == 0

/-- The magnitude as a ratio: its numerator. -/
def num (x : Binary64) : Nat := x.mantissa * Nat.pow 2 x.exponent.toNat

/-- The magnitude as a ratio: its denominator. -/
def den (x : Binary64) : Nat := Nat.pow 2 (-x.exponent).toNat

/-- The number nearest to a natural number. -/
def ofNat (n : Nat) : Binary64 := nearest false n 1

/-- The number nearest to an integer. -/
def ofInt (n : Int) : Binary64 := nearest (n < 0) n.natAbs 1

/-- The product, rounded once. -/
def mul (x y : Binary64) : Binary64 :=
  nearest (x.negative != y.negative) (x.num * y.num) (x.den * y.den)

/-- The quotient by a number that is not zero, rounded once. -/
def div (x y : Binary64) : Binary64 :=
  nearest (x.negative != y.negative) (x.num * y.den) (x.den * y.num)

/-- The sum, rounded once. A sum of zeros is negative only if both are. -/
def add (x y : Binary64) : Binary64 :=
  let signed (z : Binary64) : Int := if z.negative then -z.num else z.num
  let n := signed x * y.den + signed y * x.den
  nearest (n < 0 || (n == 0 && x.negative && y.negative)) n.natAbs (x.den * y.den)

/-- The number with the opposite sign. -/
def neg (x : Binary64) : Binary64 := { x with negative := !x.negative }

/-- The number without its sign. -/
def abs (x : Binary64) : Binary64 := { x with negative := false }

/-- The number is below zero. A negative zero is not. -/
def isBelowZero (x : Binary64) : Bool := x.negative && !x.isZero

/-- The same number: the zeros of both signs are one. -/
def same (x y : Binary64) : Bool := x == y || (x.isZero && y.isZero)

/-- The number nearest to `digits * 10 ^ exponent`. Decimals far outside the range of the format
are settled by their magnitude alone. -/
def ofDecimal (negative : Bool) (digits : Nat) (exponent : Int) : Binary64 :=
  let magnitude : Int := (Nat.toDigits 10 digits).length + exponent
  if digits = 0 || magnitude < -400 then ⟨negative, 0, minExponent⟩
  else if 400 < magnitude then ⟨negative, Nat.pow 2 52, maxExponent + 1⟩
  else nearest negative (digits * Nat.pow 10 exponent.toNat) (Nat.pow 10 (-exponent).toNat)

/-! ## Integer parts -/

/-- The number without its fraction. The sign stays, also that of a zero. -/
def trunc (x : Binary64) : Binary64 := nearest x.negative (x.num / x.den) 1

/-- What a division by a number that is not zero leaves if the quotient is cut off toward zero. It
has the sign of the number that is divided. -/
def rem (x y : Binary64) : Binary64 :=
  nearest x.negative ((x.num * y.den) % (y.num * x.den)) (x.den * y.den)

/-- What a division by a number that is not zero leaves if the remainder must not be below zero. -/
def remEuclid (x y : Binary64) : Binary64 :=
  let r := x.rem y
  if r.isBelowZero then r.add y.abs else r

/-- The integer part in 32 bits without a sign. A number out of their range goes to the end of the
range that is next to it. -/
def toUInt32 (x : Binary64) : UInt32 :=
  if x.negative then 0 else .ofNat (min (x.num / x.den) (Nat.pow 2 32 - 1))

/-- The integer part in 32 bits with a sign, the high bits dropped. A number that does not fit the
format is zero. -/
def toInt32 (x : Binary64) : Int32 :=
  if x.isFinite then (x.trunc.remEuclid (.ofNat (Nat.pow 2 32))).toUInt32.toInt32 else 0

end Binary64

end CommandSchema
