import CommandSchema.Proofs.Binary64.Nearest
import CommandSchema.Proofs.Text.LeadingInteger

/-!
# The integer part of a double in 32 bits

No step on the way to 32 bits rounds: the fraction is cut off, a remainder is taken and moved into
range, and each time a double holds the exact result.

* `integerPart`: the integer part of a value, toward zero.
* `value_trunc`, `value_rem`, `value_add`, `value_remEuclid`: the steps.
* `toInt32_eq_ofInt`: the result is the integer part but for the high bits, for every double.
-/

namespace CommandSchema

/-! ## Integer parts -/

/-- The integer part: the fraction is cut off toward zero. -/
def integerPart (q : ℚ) : ℤ := if 0 ≤ q then ⌊q⌋ else ⌈q⌉

theorem integerPart_of_nonneg {q : ℚ} (h : 0 ≤ q) : integerPart q = ⌊q⌋₊ := by
  rw [integerPart, if_pos h, Int.natCast_floor_eq_floor h]

theorem integerPart_neg_of_nonneg {q : ℚ} (h : 0 ≤ q) : integerPart (-q) = -⌊q⌋₊ := by
  rw [Int.natCast_floor_eq_floor h, integerPart]
  split_ifs with h0
  · obtain rfl : q = 0 := by linarith
    simp
  · exact Int.ceil_neg

@[simp] theorem integerPart_intCast (n : ℤ) : integerPart n = n := by
  simp [integerPart]

/-- A fraction without an integer before it is cut off as a whole. -/
theorem integerPart_eq_zero {q : ℚ} (h : |q| < 1) : integerPart q = 0 := by
  obtain ⟨hlow, hhigh⟩ := abs_lt.1 h
  unfold integerPart
  split_ifs with h0
  · exact Int.floor_eq_zero_iff.2 ⟨h0, hhigh⟩
  · exact Int.ceil_eq_zero_iff.2 ⟨hlow, (not_le.1 h0).le⟩

namespace Binary64

variable {x y : Binary64}

/-! ## Values that are integers -/

theorem value_of_negative (h : x.negative = true) : x.value = -x.magnitude := if_pos h

theorem value_of_not_negative (h : x.negative = false) : x.value = x.magnitude := by
  rw [value, h, if_neg (by decide)]

theorem isBelowZero_iff : x.isBelowZero = true ↔ x.value < 0 := by
  have hzero : x.magnitude = 0 ↔ x.mantissa = 0 := by simp [magnitude, zpow_ne_zero]
  have hpos : 0 < x.magnitude ↔ x.mantissa ≠ 0 := by
    rw [x.magnitude_nonneg.lt_iff_ne', ne_eq, hzero]
  cases h : x.negative with
  | false =>
    rw [value_of_not_negative h]
    simp [isBelowZero, h, x.magnitude_nonneg]
  | true =>
    rw [value_of_negative h, neg_lt_zero, hpos]
    simp [isBelowZero, isZero, h]

theorem integerPart_value (x : Binary64) :
    integerPart x.value =
      if x.negative then -((x.num / x.den : ℕ) : ℤ) else (x.num / x.den : ℕ) := by
  rw [num_div_den, value]
  split_ifs
  · exact integerPart_neg_of_nonneg x.magnitude_nonneg
  · exact integerPart_of_nonneg x.magnitude_nonneg

/-- The numerator of an integer. -/
theorem num_of_value_eq {a : ℤ} (h : x.value = a) : x.num = a.natAbs * x.den := by
  have habs : x.magnitude = a.natAbs := by
    rw [← abs_value, h, ← Int.cast_abs, Int.abs_eq_natAbs, Int.cast_natCast]
  have hcast := x.cast_num
  rw [habs] at hcast
  exact_mod_cast hcast

/-- An integer of 53 bits is not changed. -/
theorem magnitude_nearest_natCast (negative : Bool) {num den k : ℕ} (hd : 0 < den) (hk : k < 2 ^ 53)
    (h : num = k * den) : (nearest negative num den).magnitude = k := by
  have hd' : (den : ℚ) ≠ 0 := Nat.cast_ne_zero.2 hd.ne'
  have hratio : (num : ℚ) / den = k := by rw [h, Nat.cast_mul, mul_div_cancel_right₀ _ hd']
  have hexact : (num : ℚ) / den = k * 2 ^ (0 : ℤ) := by rw [hratio, zpow_zero, mul_one]
  rw [magnitude_nearest_of_eq hd hk (by decide) hexact, hratio]

/-- A double from `2 ^ 52` on is an integer. -/
theorem IsDouble.exists_value_eq (hx : x.IsDouble) (h : 2 ^ 52 ≤ |x.value|) :
    ∃ k : ℤ, x.value = k := by
  have hexponent : 0 ≤ x.exponent := by
    by_contra hneg
    have hm : (x.mantissa : ℚ) < 2 ^ 53 := by exact_mod_cast hx.mantissa_lt
    have hpow : (2 : ℚ) ^ x.exponent ≤ 2 ^ (-1 : ℤ) := zpow_le_zpow_right₀ one_le_two (by omega)
    have hpos : (0 : ℚ) < 2 ^ x.exponent := by positivity
    rw [abs_value, magnitude] at h
    rw [zpow_neg_one] at hpow
    nlinarith
  have hmagnitude : x.magnitude = (x.mantissa * 2 ^ x.exponent.toNat : ℕ) := by
    push_cast
    rw [magnitude, ← zpow_natCast, Int.toNat_of_nonneg hexponent]
  unfold value
  split_ifs
  · exact ⟨-(x.mantissa * 2 ^ x.exponent.toNat : ℕ), by rw [hmagnitude]; push_cast; rfl⟩
  · exact ⟨(x.mantissa * 2 ^ x.exponent.toNat : ℕ), by rw [hmagnitude, Int.cast_natCast]⟩

/-- An integer of 53 bits is a double. -/
theorem value_ofInt {n : ℤ} (h : n.natAbs < 2 ^ 53) : (ofInt n).value = n := by
  have hmagnitude : (ofInt n).magnitude = n.natAbs / (1 : ℕ) := by
    rw [Nat.cast_one, div_one]
    exact magnitude_nearest_natCast _ Nat.one_pos h (mul_one _).symm
  rw [← cast_ofInt_ratio n, ofInt, value_nearest, ← ofInt, hmagnitude]

/-- A signed integer of 64 bits is moved by `2 ^ 10` at most. -/
theorem abs_value_ofInt_sub_le {n : ℤ} (h : n.natAbs ≤ 2 ^ 63) :
    |(ofInt n).value - n| ≤ 2 ^ 10 := by
  have hmagnitude : |(ofInt n).magnitude - n.natAbs / (1 : ℕ)| ≤ 2 ^ 10 := by
    obtain h0 | hpos := n.natAbs.eq_zero_or_pos
    · simp [ofInt, h0]
    refine (abs_magnitude_nearest_sub_le hpos Nat.one_pos).trans ?_
    have hmin := minExponent_le_ratioExponent n.natAbs 1
    obtain hlt | heq := hmin.lt_or_eq
    · have hbound := (ratioExponent_bounds hpos Nat.one_pos).2 hlt
      have hn : (n.natAbs : ℚ) ≤ 2 ^ 63 := by exact_mod_cast h
      rw [Nat.cast_one, div_one] at hbound
      linarith
    · have hone : (2 : ℚ) ^ ratioExponent n.natAbs 1 ≤ 1 :=
        zpow_le_one_of_nonpos₀ one_le_two (heq ▸ (by decide : minExponent ≤ 0))
      linarith
  rw [← cast_ofInt_ratio n, ofInt, value_nearest, ← ofInt]
  split_ifs
  · rwa [neg_sub_neg, abs_sub_comm]
  · exact hmagnitude

theorem IsNearest.abs_value_sub_le {n : ℤ} (hx : x.IsNearest n) (h : n.natAbs ≤ 2 ^ 63) :
    |x.value - n| ≤ 2 ^ 10 :=
  (hx.le _ (isNearest_ofInt (h.trans (by norm_num))).isDouble).trans (abs_value_ofInt_sub_le h)

/-! ## The steps -/

/-- The integer part of a double has no more bits than the double. -/
theorem exists_bits_num_div_den (hx : x.IsDouble) :
    ∃ (m : ℕ) (k : ℤ), m < 2 ^ 53 ∧ minExponent ≤ k ∧ ((x.num / x.den : ℕ) : ℚ) = m * 2 ^ k := by
  by_cases h : 0 ≤ x.exponent
  · refine ⟨x.mantissa, x.exponent, hx.mantissa_lt, hx.minExponent_le, ?_⟩
    have hden : x.den = 1 := by simp [den, Int.toNat_of_nonpos (neg_nonpos.2 h)]
    have hnum := x.cast_num
    rw [hden, Nat.cast_one, mul_one] at hnum
    rw [hden, Nat.div_one, hnum, magnitude]
  · refine ⟨x.num / x.den, 0, ?_, by decide, by rw [zpow_zero, mul_one]⟩
    have hnum : x.num = x.mantissa := by
      simp [num, Int.toNat_of_nonpos (not_le.1 h).le]
    rw [hnum]
    exact (Nat.div_le_self ..).trans_lt hx.mantissa_lt

theorem value_trunc (hx : x.IsDouble) : x.trunc.value = integerPart x.value := by
  obtain ⟨m, k, hm, hk, h⟩ := exists_bits_num_div_den hx
  have hmagnitude : x.trunc.magnitude = (x.num / x.den : ℕ) := by
    have hkept : x.trunc.magnitude = (x.num / x.den : ℕ) / (1 : ℕ) :=
      magnitude_nearest_of_eq Nat.one_pos hm hk (by rwa [Nat.cast_one, div_one])
    rwa [Nat.cast_one, div_one] at hkept
  rw [trunc, value_nearest, integerPart_value, ← trunc, hmagnitude]
  split <;> push_cast <;> rfl

/-- Dividing an integer leaves an integer with its sign. -/
theorem value_rem {a : ℤ} {b : ℕ} (hx : x.value = a) (hy : y.value = (b : ℤ)) (hb : 0 < b)
    (hlt : b < 2 ^ 53) : (x.rem y).value = (a.tmod b : ℤ) := by
  have hnum : (x.num * y.den) % (y.num * x.den) = a.natAbs % b * (x.den * y.den) := by
    rw [num_of_value_eq hx, num_of_value_eq hy, Int.natAbs_natCast, mul_assoc, mul_assoc,
      mul_comm y.den, Nat.mul_mod_mul_right]
  have hmagnitude : (x.rem y).magnitude = (a.natAbs % b : ℕ) :=
    magnitude_nearest_natCast x.negative (Nat.mul_pos x.den_pos y.den_pos)
      ((Nat.mod_lt _ hb).trans hlt) hnum
  rw [rem, value_nearest, ← rem, hmagnitude]
  cases h : x.negative with
  | false =>
    rw [value_of_not_negative h] at hx
    obtain ⟨n, rfl⟩ := Int.eq_ofNat_of_zero_le (a := a) (by exact_mod_cast hx ▸ x.magnitude_nonneg)
    rfl
  | true =>
    rw [value_of_negative h, neg_eq_iff_eq_neg] at hx
    obtain ⟨n, hn⟩ := Int.eq_ofNat_of_zero_le (a := -a) (by exact_mod_cast hx ▸ x.magnitude_nonneg)
    obtain rfl := neg_eq_iff_eq_neg.1 hn
    rw [Int.neg_tmod, Int.natAbs_neg]
    push_cast
    rfl

/-- The numerator of an integer with the sign of the integer. -/
theorem signed_num_of_value_eq {a : ℤ} (h : x.value = a) :
    (if x.negative then -(x.num : ℤ) else x.num) = a * x.den := by
  have hcast : ((if x.negative then -(x.num : ℤ) else x.num : ℤ) : ℚ) = a * x.den := by
    rw [← h, value]
    split <;> push_cast <;> rw [x.cast_num]
    rw [neg_mul]
  exact_mod_cast hcast

/-- The sum of integers is an integer while it has 53 bits. -/
theorem value_add {a b : ℤ} (hx : x.value = a) (hy : y.value = b) (hlt : (a + b).natAbs < 2 ^ 53) :
    (x.add y).value = (a + b : ℤ) := by
  have hsum : a * x.den * y.den + b * y.den * x.den = (a + b) * ((x.den * y.den : ℕ) : ℤ) := by
    push_cast
    ring
  have hnat : ((a + b) * ((x.den * y.den : ℕ) : ℤ)).natAbs = (a + b).natAbs * (x.den * y.den) := by
    rw [Int.natAbs_mul, Int.natAbs_natCast]
  have hd : 0 < x.den * y.den := Nat.mul_pos x.den_pos y.den_pos
  have hd' : (0 : ℤ) < (x.den * y.den : ℕ) := Int.natCast_pos.2 hd
  simp only [add, signed_num_of_value_eq hx, signed_num_of_value_eq hy, hsum]
  rw [value_nearest, magnitude_nearest_natCast _ hd hlt hnat]
  obtain h | h | h := lt_trichotomy (a + b) 0
  · have hneg : (a + b) * ((x.den * y.den : ℕ) : ℤ) < 0 := mul_neg_of_neg_of_pos h hd'
    rw [decide_eq_true hneg, Bool.true_or, if_pos rfl, ← Int.cast_natCast, Int.natCast_natAbs,
      abs_of_neg h]
    push_cast
    ring
  · simp [h]
  · have hpos : 0 < (a + b) * ((x.den * y.den : ℕ) : ℤ) := mul_pos h hd'
    rw [decide_eq_false hpos.not_gt, beq_false_of_ne hpos.ne', Bool.false_and, Bool.false_and,
      Bool.or_self, if_neg (by decide), ← Int.cast_natCast, Int.natCast_natAbs, abs_of_pos h]

/-- The remainder that is not below zero. -/
theorem value_remEuclid {a : ℤ} {b : ℕ} (hx : x.value = a) (hy : y.value = (b : ℤ)) (hb : 0 < b)
    (hlt : b < 2 ^ 53) : (x.remEuclid y).value = (a % b : ℤ) := by
  have hrem := value_rem hx hy hb hlt
  have habs : y.abs.value = (b : ℤ) := by
    have hmagnitude : y.magnitude = (b : ℤ) := by
      rw [← abs_value, hy, Int.cast_natCast, Nat.abs_cast]
    rw [value_of_not_negative (by rfl), ← hmagnitude]
    rfl
  have hlow := Int.emod_nonneg a (Int.natCast_ne_zero.2 hb.ne')
  have hhigh := Int.emod_lt_of_pos a (Int.natCast_pos.2 hb)
  have htmod := Int.tmod_eq_emod (a := a) (b := b)
  rw [Int.natAbs_natCast] at htmod
  simp only [remEuclid, isBelowZero_iff, hrem]
  by_cases h : ((a.tmod b : ℤ) : ℚ) < 0
  · have hneg : a.tmod b < 0 := by exact_mod_cast h
    rw [if_pos h]
    split_ifs at htmod
    · omega
    · rw [value_add hrem habs (by omega), htmod, sub_add_cancel]
  · have hnonneg : 0 ≤ a.tmod b := by exact_mod_cast not_lt.1 h
    rw [if_neg h, hrem]
    split_ifs at htmod
    · rw [htmod, Nat.cast_zero, sub_zero]
    · omega

/-! ## In 32 bits -/

theorem toUInt32_of_value_eq {k : ℕ} (h : x.value = (k : ℤ)) (hk : k < 2 ^ 32) :
    x.toUInt32 = .ofNat k := by
  have hnum := num_of_value_eq h
  rw [Int.natAbs_natCast] at hnum
  have hquotient : x.num / x.den = k := by rw [hnum, Nat.mul_div_cancel _ x.den_pos]
  unfold toUInt32
  split_ifs with hnegative
  · -- Only a zero has a minus sign here.
    have hzero : (k : ℚ) = 0 := by
      rw [value_of_negative hnegative, Int.cast_natCast] at h
      linarith [x.magnitude_nonneg, (Nat.cast_nonneg k : (0 : ℚ) ≤ k)]
    rw [Nat.cast_eq_zero.1 hzero]
    rfl
  · rw [hquotient, Nat.min_eq_left (by simp only [Nat.pow_eq]; omega)]

/-- Before the high bits are dropped the number is the remainder itself, in range. -/
theorem value_remEuclid_trunc (hx : x.IsDouble) :
    (x.trunc.remEuclid (.ofNat (Nat.pow 2 32))).value = (integerPart x.value % 2 ^ 32 : ℤ) := by
  have hmodulus : (ofNat (Nat.pow 2 32)).value = ((2 ^ 32 : ℕ) : ℤ) := by
    rw [ofNat, value_nearest, if_neg (by decide),
      magnitude_nearest_natCast false Nat.one_pos (by norm_num : 2 ^ 32 < 2 ^ 53) (by norm_num)]
    norm_num
  exact value_remEuclid (value_trunc hx) hmodulus (by norm_num) (by norm_num)

/-- The integer part of a double in 32 bits. -/
theorem toInt32_eq_ofInt (hx : x.IsDouble) : x.toInt32 = .ofInt (integerPart x.value) := by
  have hfinite : x.isFinite = true := decide_eq_true hx.exponent_le
  have hlow := Int.emod_nonneg (integerPart x.value) (by norm_num : (2 ^ 32 : ℤ) ≠ 0)
  have hhigh := Int.emod_lt_of_pos (integerPart x.value) (by norm_num : (0 : ℤ) < 2 ^ 32)
  obtain ⟨k, hk⟩ := Int.eq_ofNat_of_zero_le hlow
  have hvalue := value_remEuclid_trunc hx
  rw [hk] at hvalue hhigh
  rw [toInt32, if_pos hfinite, toUInt32_of_value_eq hvalue (by exact_mod_cast hhigh),
    UInt32.toInt32_ofNat', Text.eq_ofInt_iff_modEq]
  calc (Int32.ofInt k).toInt ≡ k [ZMOD 2 ^ 32] := Text.eq_ofInt_iff_modEq.1 rfl
    _ ≡ integerPart x.value [ZMOD 2 ^ 32] := hk ▸ Int.mod_modEq _ _

end Binary64

end CommandSchema
