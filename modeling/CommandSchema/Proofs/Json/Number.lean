import CommandSchema.Proofs.Binary64.Int32
import CommandSchema.Proofs.Json.Kept

/-!
# Numbers of a JSON text in 32 bits

A signed integer of 64 bits is brought into 32 bits as it is, any other number as its double.

* `Number.workedValue`: the value that is brought into 32 bits.
* `toInt32_eq_ofInt`: of every number the integer part is kept, but for the high bits.
* `toInt32_integer_eq_iff`: a double nearest to an integer gives the same 32 bits only if it is the
  integer.
* `Number.IsExact`, `toInt32_toDouble_iff`: the numbers that have the same 32 bits as their doubles.
-/

namespace CommandSchema.Json.Number

open Binary64

/-- The value that is brought into 32 bits: a signed integer of 64 bits itself, otherwise the value
of the double. -/
def workedValue : Number → ℚ
  | .integer n => if n < 2 ^ 63 then n else (Binary64.ofInt n).value
  | .real x => x.value

theorem toDouble_isDouble {n : Number} (h : n.IsKept) : n.toDouble.IsDouble := by
  cases n with
  | integer n => exact (isNearest_ofInt (by simp only [IsKept] at h; omega)).isDouble
  | real x => exact h

/-- The 32 bits of a number are those of the integer part of its value. -/
theorem toInt32_eq_ofInt {n : Number} (h : n.IsKept) :
    n.toInt32 = .ofInt (integerPart n.workedValue) := by
  cases n with
  | integer k =>
    by_cases hk : k < 2 ^ 63
    · rw [toInt32_integer hk, workedValue, if_pos hk, integerPart_intCast]
    · rw [toInt32_integer_of_le (not_lt.1 hk), workedValue, if_neg hk]
      exact Binary64.toInt32_eq_ofInt (toDouble_isDouble h)
  | real x => exact Binary64.toInt32_eq_ofInt h

/-! ## Integers and their doubles -/

/-- A double nearest to an integer has the 32 bits of the integer only if it is the integer. -/
theorem toInt32_integer_eq_iff {n : ℤ} (hlow : -2 ^ 63 ≤ n) (hhigh : n < 2 ^ 63) {x : Binary64}
    (hx : x.IsNearest n) :
    (integer n).toInt32 = (real x).toInt32 ↔ ∃ y : Binary64, y.IsDouble ∧ y.value = n := by
  have hleft : (integer n).toInt32 = .ofInt n := toInt32_integer hhigh
  have hright : (real x).toInt32 = .ofInt (integerPart x.value) :=
    toInt32_eq_ofInt (n := .real x) hx.isDouble
  rw [hx.exists_value_eq_iff]
  constructor
  · intro h
    by_cases hbits : n.natAbs < 2 ^ 53
    · exact hx.exists_value_eq_iff.1
        ⟨.ofInt n, (isNearest_ofInt (by omega)).isDouble, value_ofInt hbits⟩
    -- Both are integers less than `2 ^ 32` apart.
    have hnear := hx.abs_value_sub_le (by omega)
    have hbits' : (2 : ℚ) ^ 53 ≤ |(n : ℚ)| := by
      rw [← Int.cast_abs, Int.abs_eq_natAbs, Int.cast_natCast]
      exact_mod_cast not_lt.1 hbits
    obtain ⟨k, hk⟩ := hx.isDouble.exists_value_eq (by
      have htriangle := abs_sub_abs_le_abs_sub (n : ℚ) x.value
      rw [abs_sub_comm] at htriangle
      linarith)
    rw [hk, integerPart_intCast] at hright
    rw [hk] at hnear ⊢
    have hmod : n ≡ k [ZMOD 2 ^ 32] :=
      (Text.eq_ofInt_iff_modEq.1 hleft).symm.trans (h ▸ Text.eq_ofInt_iff_modEq.1 hright)
    have hclose : |k - n| ≤ 2 ^ 10 := by exact_mod_cast hnear
    exact congrArg _ (sub_eq_zero.1
      (Int.eq_zero_of_abs_lt_dvd hmod.dvd (hclose.trans_lt (by norm_num))))
  · intro h
    rw [hleft, hright, h, integerPart_intCast]

/-- A double holds the value that is brought into 32 bits. -/
def IsExact (n : Number) : Prop := ∃ x : Binary64, x.IsDouble ∧ x.value = n.workedValue

/-- A number and its double have the same 32 bits only if no rounding is left out. -/
theorem toInt32_toDouble_iff {n : Number} (h : n.IsKept) :
    (real n.toDouble).toInt32 = n.toInt32 ↔ n.IsExact := by
  cases n with
  | integer k =>
    by_cases hk : k < 2 ^ 63
    · rw [eq_comm, IsExact, workedValue, if_pos hk]
      exact toInt32_integer_eq_iff h.1 hk (isNearest_ofInt (by simp only [IsKept] at h; omega))
    · rw [IsExact, workedValue, if_neg hk]
      exact iff_of_true (toInt32_integer_of_le (not_lt.1 hk)).symm ⟨_, toDouble_isDouble h, rfl⟩
  | real x => exact iff_of_true rfl ⟨x, h, rfl⟩

end CommandSchema.Json.Number
