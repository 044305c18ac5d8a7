import CommandSchema.Binary64
import Mathlib.Algebra.Order.Field.Power
import Mathlib.Data.Rat.Floor
import Mathlib.Tactic.FieldSimp
import Mathlib.Tactic.Linarith
import Mathlib.Tactic.NormNum
import Mathlib.Tactic.Positivity
import Mathlib.Tactic.Ring

/-!
# Rounding to doubles

The values of doubles are rationals, and rounding is said of them: to the nearest double, a tie to
the one with the even mantissa.

* `Binary64.value`: the exact value of a double; `Binary64.IsDouble`: the numbers of the format.
* `ratioExponent_bounds`: the exponent around a ratio leaves it 53 bits.
* `magnitude_nearest_of_eq`: a ratio that a double holds is not changed.
* `isDouble_nearest`: rounding stays in the format up to its largest number.
* `Binary64.IsNearest`: the double nearest to a value; `isNearest_nearest`: rounding gives it.
-/

namespace CommandSchema.Binary64

/-! ## Values -/

/-- The value without its sign. -/
def magnitude (x : Binary64) : ℚ := x.mantissa * 2 ^ x.exponent

/-- The exact value. -/
def value (x : Binary64) : ℚ := if x.negative then -x.magnitude else x.magnitude

/-- A finite double: a mantissa of 53 bits with an exponent in range, in normal form. -/
structure IsDouble (x : Binary64) : Prop where
  mantissa_lt : x.mantissa < 2 ^ 53
  minExponent_le : minExponent ≤ x.exponent
  exponent_le : x.exponent ≤ maxExponent
  normal : 2 ^ 52 ≤ x.mantissa ∨ x.exponent = minExponent

theorem magnitude_nonneg (x : Binary64) : 0 ≤ x.magnitude := by
  unfold magnitude
  positivity

/-- The largest number of the format. -/
theorem IsDouble.magnitude_le {x : Binary64} (hx : x.IsDouble) :
    x.magnitude ≤ (2 ^ 53 - 1) * 2 ^ maxExponent := by
  have hm : (x.mantissa : ℚ) + 1 ≤ 2 ^ 53 := by exact_mod_cast hx.mantissa_lt
  have hpow : (2 : ℚ) ^ x.exponent ≤ 2 ^ maxExponent :=
    zpow_le_zpow_right₀ one_le_two hx.exponent_le
  exact mul_le_mul (by linarith) hpow (by positivity) (by norm_num)

theorem abs_value (x : Binary64) : |x.value| = x.magnitude := by
  unfold value
  split
  · rw [abs_neg, abs_of_nonneg x.magnitude_nonneg]
  · exact abs_of_nonneg x.magnitude_nonneg

/-- A power of two is split into the powers that stand above and below a fraction line. -/
private theorem two_pow_split (e : ℤ) : (2 : ℚ) ^ e.toNat = 2 ^ e * 2 ^ (-e).toNat := by
  rw [← zpow_natCast, ← zpow_natCast, ← zpow_add₀ two_ne_zero]
  congr 1
  omega

theorem cast_den (x : Binary64) : (x.den : ℚ) = 2 ^ (-x.exponent).toNat := by
  simp [den, Nat.pow_eq]

theorem den_pos (x : Binary64) : 0 < x.den := Nat.two_pow_pos _

/-- The numerator and the denominator make up the magnitude. -/
theorem cast_num (x : Binary64) : (x.num : ℚ) = x.magnitude * x.den := by
  rw [cast_den, magnitude, mul_assoc, ← two_pow_split]
  simp [num, Nat.pow_eq]

theorem num_div_den (x : Binary64) : x.num / x.den = ⌊x.magnitude⌋₊ := by
  have hden : (x.den : ℚ) ≠ 0 := Nat.cast_ne_zero.2 x.den_pos.ne'
  rw [← Rat.natFloor_natCast_div_natCast, cast_num, mul_div_cancel_right₀ _ hden]

/-! ## Quotients to integers -/

/-- A quotient goes down or up, to the nearer side, and a tie to the even one. -/
theorem roundQuotient_cases (n d : ℕ) :
    roundQuotient n d = n / d ∧ 2 * (n % d) ≤ d ∧ (2 * (n % d) = d → Even (n / d)) ∨
      roundQuotient n d = n / d + 1 ∧ d ≤ 2 * (n % d) ∧ (2 * (n % d) = d → Even (n / d + 1)) := by
  unfold roundQuotient
  simp only [Bool.or_eq_true, Bool.and_eq_true, decide_eq_true_eq, beq_iff_eq]
  split_ifs with h
  · exact .inl ⟨rfl, by omega, fun ht => Nat.even_iff.2 (by omega)⟩
  · exact .inr ⟨rfl, by omega, fun ht => Nat.even_iff.2 (by omega)⟩

/-- A rounded quotient is at most a half away, and is even if it is a half away. -/
theorem abs_roundQuotient_sub {n d : ℕ} (hd : 0 < d) :
    |(roundQuotient n d : ℚ) - n / d| ≤ 1 / 2 ∧
      (|(roundQuotient n d : ℚ) - n / d| = 1 / 2 → Even (roundQuotient n d)) := by
  have hd' : (0 : ℚ) < d := Nat.cast_pos.2 hd
  have hn : (n : ℚ) / d = (n / d : ℕ) + (n % d : ℕ) / d := by
    rw [div_eq_iff hd'.ne', add_mul, div_mul_cancel₀ _ hd'.ne', mul_comm]
    exact_mod_cast (Nat.div_add_mod n d).symm
  have hr : (0 : ℚ) ≤ (n % d : ℕ) / d := by positivity
  have hr1 : ((n % d : ℕ) : ℚ) / d < 1 := by
    rw [div_lt_one hd']
    exact_mod_cast Nat.mod_lt n hd
  rw [hn]
  obtain ⟨he, hle, htie⟩ | ⟨he, hle, htie⟩ := roundQuotient_cases n d
  · have hhalf : ((n % d : ℕ) : ℚ) / d ≤ 1 / 2 := by
      rw [div_le_iff₀ hd']
      have : 2 * ((n % d : ℕ) : ℚ) ≤ d := by exact_mod_cast hle
      linarith
    have habs : |(roundQuotient n d : ℚ) - ((n / d : ℕ) + (n % d : ℕ) / d)| = (n % d : ℕ) / d := by
      rw [he, sub_add_cancel_left, abs_neg, abs_of_nonneg hr]
    refine ⟨habs.trans_le hhalf, fun h => he ▸ htie ?_⟩
    rw [habs, div_eq_iff hd'.ne'] at h
    have : 2 * ((n % d : ℕ) : ℚ) = d := by linarith
    exact_mod_cast this
  · have hhalf : 1 / 2 ≤ ((n % d : ℕ) : ℚ) / d := by
      rw [le_div_iff₀ hd']
      have : (d : ℚ) ≤ 2 * ((n % d : ℕ) : ℚ) := by exact_mod_cast hle
      linarith
    have habs : |(roundQuotient n d : ℚ) - ((n / d : ℕ) + (n % d : ℕ) / d)| =
        1 - (n % d : ℕ) / d := by
      rw [he, Nat.cast_add_one, add_sub_add_left_eq_sub, abs_of_nonneg (by linarith)]
    refine ⟨by linarith, fun h => he ▸ htie ?_⟩
    rw [habs, sub_eq_iff_eq_add, ← sub_eq_iff_eq_add', eq_div_iff hd'.ne'] at h
    have : 2 * ((n % d : ℕ) : ℚ) = d := by linarith
    exact_mod_cast this

/-- No integer is nearer, and one that is as near makes it a tie. -/
theorem roundQuotient_nearest {n d : ℕ} (hd : 0 < d) (k : ℤ) :
    |(roundQuotient n d : ℚ) - n / d| ≤ |(k : ℚ) - n / d| ∧
      (|(k : ℚ) - n / d| = |(roundQuotient n d : ℚ) - n / d| → k ≠ roundQuotient n d →
        Even (roundQuotient n d)) := by
  obtain ⟨hhalf, htie⟩ := abs_roundQuotient_sub (n := n) hd
  by_cases hk : k = roundQuotient n d
  · simp [hk]
  have hapart : 1 ≤ |(k : ℚ) - roundQuotient n d| := by
    have h : 1 ≤ |k - (roundQuotient n d : ℤ)| := Int.one_le_abs (sub_ne_zero.2 hk)
    exact_mod_cast h
  have htriangle := abs_sub_le (k : ℚ) (n / d) (roundQuotient n d)
  rw [abs_sub_comm ((n : ℚ) / d)] at htriangle
  exact ⟨by linarith, fun h _ => htie (by linarith)⟩

/-! ## The exponent around a ratio -/

section Ratio

variable {num den : ℕ} {e : ℤ}

theorem scaleRatio_den_pos (num : ℕ) (e : ℤ) (hd : 0 < den) : 0 < (scaleRatio num den e).2 :=
  Nat.mul_pos hd (Nat.two_pow_pos _)

theorem cast_scaleRatio (hd : 0 < den) :
    ((scaleRatio num den e).1 : ℚ) / (scaleRatio num den e).2 = num / den / 2 ^ e := by
  have hd' : (den : ℚ) ≠ 0 := Nat.cast_ne_zero.2 hd.ne'
  have hpow : (2 : ℚ) ^ e.toNat = 2 ^ e * 2 ^ (-e).toNat := two_pow_split e
  simp only [scaleRatio, Nat.pow_eq, Nat.cast_mul, Nat.cast_pow, Nat.cast_ofNat, hpow]
  field_simp

theorem minExponent_le_ratioExponent (num den : ℕ) : minExponent ≤ ratioExponent num den :=
  le_max_left ..

/-- The ratio has at most 53 bits before the point at its exponent, and exactly as many unless it is
among the smallest. -/
theorem ratioExponent_bounds (hn : 0 < num) (hd : 0 < den) :
    (num : ℚ) / den < 2 ^ 53 * 2 ^ ratioExponent num den ∧
      (minExponent < ratioExponent num den →
        2 ^ 52 * 2 ^ ratioExponent num den ≤ (num : ℚ) / den) := by
  have hd' : (0 : ℚ) < den := Nat.cast_pos.2 hd
  have hnlow : (2 : ℚ) ^ num.log2 ≤ num := by exact_mod_cast Nat.log2_self_le hn.ne'
  have hnhigh : (num : ℚ) < 2 ^ (num.log2 + 1) := by exact_mod_cast Nat.lt_log2_self
  have hdlow : (2 : ℚ) ^ den.log2 ≤ den := by exact_mod_cast Nat.log2_self_le hd.ne'
  have hdhigh : (den : ℚ) < 2 ^ (den.log2 + 1) := by exact_mod_cast Nat.lt_log2_self
  generalize hs : (num.log2 : ℤ) - den.log2 - 53 = s
  -- The ratio lies between `2 ^ (s + 52)` and `2 ^ (s + 54)`; one comparison halves the interval.
  have hlow : (2 : ℚ) ^ (s + 52) ≤ num / den := by
    rw [le_div_iff₀ hd']
    calc (2 : ℚ) ^ (s + 52) * den ≤ 2 ^ (s + 52) * 2 ^ (den.log2 + 1) := by gcongr
      _ = 2 ^ num.log2 := by
        rw [← zpow_natCast, ← zpow_natCast, ← zpow_add₀ two_ne_zero]
        congr 1
        push_cast
        omega
      _ ≤ num := hnlow
  have hhigh : (num : ℚ) / den < 2 ^ (s + 54) := by
    rw [div_lt_iff₀ hd']
    calc (num : ℚ) < 2 ^ (num.log2 + 1) := hnhigh
      _ = 2 ^ (s + 54) * 2 ^ den.log2 := by
        rw [← zpow_natCast, ← zpow_natCast, ← zpow_add₀ two_ne_zero]
        congr 1
        push_cast
        omega
      _ ≤ 2 ^ (s + 54) * den := by gcongr
  have hcompare : (scaleRatio num den s).1 / (scaleRatio num den s).2 < Nat.pow 2 53 ↔
      (num : ℚ) / den < 2 ^ (s + 53) := by
    rw [Nat.div_lt_iff_lt_mul (scaleRatio_den_pos _ _ hd), ← Nat.cast_lt (α := ℚ), Nat.cast_mul,
      ← div_lt_iff₀ (Nat.cast_pos.2 (scaleRatio_den_pos _ _ hd)), cast_scaleRatio hd,
      div_lt_iff₀ (by positivity), zpow_add₀ two_ne_zero, mul_comm]
    norm_num
  have hfit : ∀ t : ℤ, (2 : ℚ) ^ (t + 52) ≤ num / den → (num : ℚ) / den < 2 ^ (t + 53) →
      (num : ℚ) / den < 2 ^ 53 * 2 ^ max minExponent t ∧
        (minExponent < max minExponent t → 2 ^ 52 * 2 ^ max minExponent t ≤ (num : ℚ) / den) := by
    intro t hlow hhigh
    have hsplit (k : ℕ) (t : ℤ) : (2 : ℚ) ^ k * 2 ^ t = 2 ^ (t + k) := by
      rw [zpow_add₀ two_ne_zero, zpow_natCast, mul_comm]
    rw [hsplit, hsplit]
    constructor
    · exact hhigh.trans_le (zpow_le_zpow_right₀ one_le_two (by push_cast; omega))
    · intro hmin
      rw [max_eq_right (by omega)]
      exact hlow
  unfold ratioExponent
  simp only [hs, hcompare]
  split_ifs with hcase
  · exact hfit s hlow hcase
  · refine hfit (s + 1) ?_ ?_
    · rw [show s + 1 + 52 = s + 53 by omega]
      exact not_lt.1 hcase
    · rwa [show s + 1 + 53 = s + 54 by omega]

/-- The ratio in units of its exponent, rounded to an integer. -/
def units (num den : ℕ) : ℕ :=
  roundQuotient (scaleRatio num den (ratioExponent num den)).1
    (scaleRatio num den (ratioExponent num den)).2

/-- A step of the exponent doubles a unit at least. -/
private theorem two_mul_two_zpow_le {k : ℤ} (h : k < e) : (2 : ℚ) * 2 ^ k ≤ 2 ^ e := by
  rw [← zpow_one_add₀ two_ne_zero]
  exact zpow_le_zpow_right₀ one_le_two (by omega)

/-- A multiple of a coarser unit is a whole number of units. -/
private theorem mul_two_zpow_eq (m : ℕ) {k : ℤ} (h : e ≤ k) :
    (m : ℚ) * 2 ^ k = ((m * 2 ^ (k - e).toNat : ℕ) : ℤ) * 2 ^ e := by
  push_cast
  rw [mul_assoc, ← zpow_natCast, ← zpow_add₀ two_ne_zero, Int.toNat_of_nonneg (by omega),
    sub_add_cancel]

/-- A distance in units. -/
private theorem abs_mul_two_zpow_sub (a q : ℚ) : |a * 2 ^ e - q| = |a - q / 2 ^ e| * 2 ^ e := by
  have hpos : (0 : ℚ) < 2 ^ e := by positivity
  rw [← abs_of_pos hpos, ← abs_mul, abs_of_pos hpos, sub_mul, div_mul_cancel₀ _ hpos.ne']

theorem abs_units_sub_le (num : ℕ) (hd : 0 < den) :
    |(units num den : ℚ) - num / den / 2 ^ ratioExponent num den| ≤ 1 / 2 := by
  rw [← cast_scaleRatio hd]
  exact (abs_roundQuotient_sub (scaleRatio_den_pos _ _ hd)).1

/-- No whole number of units is nearer, and one that is as near makes it a tie. -/
theorem units_nearest (num : ℕ) (hd : 0 < den) (k : ℤ) :
    |(units num den : ℚ) * 2 ^ ratioExponent num den - num / den| ≤
        |k * 2 ^ ratioExponent num den - (num : ℚ) / den| ∧
      (|k * 2 ^ ratioExponent num den - (num : ℚ) / den| =
          |(units num den : ℚ) * 2 ^ ratioExponent num den - num / den| →
        k ≠ units num den → Even (units num den)) := by
  have hpos : (0 : ℚ) < 2 ^ ratioExponent num den := by positivity
  obtain ⟨hle, htie⟩ :=
    roundQuotient_nearest (scaleRatio_den_pos num (ratioExponent num den) hd) k
  rw [cast_scaleRatio hd] at hle htie
  rw [abs_mul_two_zpow_sub, abs_mul_two_zpow_sub]
  exact ⟨mul_le_mul_of_nonneg_right hle hpos.le, fun h => htie (mul_right_cancel₀ hpos.ne' h)⟩

theorem units_le (hn : 0 < num) (hd : 0 < den) : units num den ≤ 2 ^ 53 := by
  have hlt : (num : ℚ) / den / 2 ^ ratioExponent num den < 2 ^ 53 := by
    rw [div_lt_iff₀ (by positivity)]
    exact (ratioExponent_bounds hn hd).1
  have hround := (abs_le.1 (abs_units_sub_le num hd)).2
  have h : (units num den : ℚ) < 2 ^ 53 + 1 := by linarith
  exact Nat.lt_succ_iff.1 (by exact_mod_cast h)

/-- Above the smallest numbers the units have 53 bits. -/
theorem le_units (hn : 0 < num) (hd : 0 < den) (he : minExponent < ratioExponent num den) :
    2 ^ 52 ≤ units num den := by
  have hle : 2 ^ 52 ≤ (num : ℚ) / den / 2 ^ ratioExponent num den := by
    rw [le_div_iff₀ (by positivity)]
    exact (ratioExponent_bounds hn hd).2 he
  have hround := (abs_le.1 (abs_units_sub_le num hd)).1
  have h : (2 ^ 52 : ℚ) < units num den + 1 := by linarith
  exact Nat.lt_succ_iff.1 (by exact_mod_cast h)

end Ratio

/-! ## The number nearest to a ratio -/

@[simp] theorem negative_nearest (negative : Bool) (num den : ℕ) :
    (nearest negative num den).negative = negative := by
  unfold nearest
  split_ifs
  · rfl
  · dsimp only
    split_ifs <;> rfl

theorem value_nearest (negative : Bool) (num den : ℕ) :
    (nearest negative num den).value =
      if negative then -(nearest negative num den).magnitude
      else (nearest negative num den).magnitude := by
  rw [value, negative_nearest]

@[simp] theorem magnitude_nearest_zero (negative : Bool) (den : ℕ) :
    (nearest negative 0 den).magnitude = 0 := by
  simp [nearest, magnitude]

section Nearest

variable {negative : Bool} {num den : ℕ}

/-- The number nearest to a ratio that is not zero has the rounded units for its mantissa, or half
of them if they have become 54 bits. -/
theorem nearest_cases (negative : Bool) (den : ℕ) (hn : 0 < num) :
    units num den ≠ 2 ^ 53 ∧
        nearest negative num den = ⟨negative, units num den, ratioExponent num den⟩ ∨
      units num den = 2 ^ 53 ∧
        nearest negative num den = ⟨negative, 2 ^ 52, ratioExponent num den + 1⟩ := by
  simp only [nearest, hn.ne', if_false, ← units.eq_1]
  by_cases h : units num den = 2 ^ 53
  · exact .inr ⟨h, if_pos h⟩
  · exact .inl ⟨h, if_neg h⟩

theorem magnitude_nearest (hn : 0 < num) :
    (nearest negative num den).magnitude = units num den * 2 ^ ratioExponent num den := by
  obtain ⟨-, h⟩ | ⟨hunits, h⟩ := nearest_cases negative den hn
  · rw [h, magnitude]
  · rw [h, magnitude, hunits, zpow_add_one₀ two_ne_zero]
    push_cast
    ring

/-- An even number of units stays even. -/
theorem even_mantissa_nearest (hn : 0 < num) (h : Even (units num den)) :
    Even (nearest negative num den).mantissa := by
  obtain ⟨-, hx⟩ | ⟨-, hx⟩ := nearest_cases negative den hn
  · rwa [hx]
  · rw [hx]
    exact ⟨2 ^ 51, by norm_num⟩

/-- Rounding is off by half a unit at most. -/
theorem abs_magnitude_nearest_sub_le (hn : 0 < num) (hd : 0 < den) :
    |(nearest negative num den).magnitude - num / den| ≤ 2 ^ ratioExponent num den / 2 := by
  have hpos : (0 : ℚ) < 2 ^ ratioExponent num den := by positivity
  have hunits := mul_le_mul_of_nonneg_right (abs_units_sub_le num hd) hpos.le
  rw [magnitude_nearest hn, abs_mul_two_zpow_sub]
  linarith

/-- Rounding stays in the format where the exponent does. -/
theorem isDouble_nearest (hd : 0 < den) (hfinite : (nearest negative num den).isFinite) :
    (nearest negative num den).IsDouble := by
  have hexponent : (nearest negative num den).exponent ≤ maxExponent := of_decide_eq_true hfinite
  obtain rfl | hn := num.eq_zero_or_pos
  · have hzero : nearest negative 0 den = ⟨negative, 0, minExponent⟩ := if_pos rfl
    rw [hzero]
    exact ⟨Nat.two_pow_pos 53, le_rfl, (by decide : minExponent ≤ maxExponent), .inr rfl⟩
  have hmin := minExponent_le_ratioExponent num den
  have hle := units_le hn hd
  obtain ⟨hunits, hx⟩ | ⟨-, hx⟩ := nearest_cases negative den hn
  · rw [hx] at hexponent ⊢
    refine ⟨hle.lt_of_ne hunits, hmin, hexponent, ?_⟩
    obtain h | h := hmin.lt_or_eq
    · exact .inl (le_units hn hd h)
    · exact .inr h.symm
  · rw [hx] at hexponent ⊢
    exact ⟨by norm_num, by dsimp only; omega, hexponent, .inl le_rfl⟩

/-- A ratio up to the largest number does not leave the format. -/
theorem isFinite_nearest (hd : 0 < den)
    (h : (num : ℚ) / den ≤ (2 ^ 53 - 1) * 2 ^ maxExponent) :
    (nearest negative num den).isFinite := by
  obtain rfl | hn := num.eq_zero_or_pos
  · exact decide_eq_true (by simp [nearest, minExponent, maxExponent])
  have hpos : (0 : ℚ) < 2 ^ maxExponent := by positivity
  have hmin := minExponent_le_ratioExponent num den
  have hexponent : ratioExponent num den ≤ maxExponent := by
    by_contra hlt
    have hlow := (ratioExponent_bounds hn hd).2 (by unfold minExponent maxExponent at *; omega)
    have hpow := two_mul_two_zpow_le (not_le.1 hlt)
    linarith
  obtain ⟨-, hx⟩ | ⟨hunits, hx⟩ := nearest_cases negative den hn
  · rw [hx]
    exact decide_eq_true hexponent
  · rw [hx]
    refine decide_eq_true (Int.add_one_le_of_lt (hexponent.lt_of_ne fun he => ?_))
    -- At the last exponent the largest number is a whole unit below the one rounded to.
    have hround := (abs_le.1 (abs_units_sub_le num hd)).2
    rw [hunits, he, sub_le_comm, le_div_iff₀ hpos] at hround
    push_cast at hround
    nlinarith

/-- A ratio of 53 bits at an exponent of the format is not changed. -/
theorem magnitude_nearest_of_eq (hd : 0 < den) {m : ℕ} {k : ℤ} (hm : m < 2 ^ 53)
    (hk : minExponent ≤ k) (h : (num : ℚ) / den = m * 2 ^ k) :
    (nearest negative num den).magnitude = num / den := by
  obtain rfl | hn := num.eq_zero_or_pos
  · simp
  have hcoarse : ratioExponent num den ≤ k := by
    by_contra hlt
    have hlow := (ratioExponent_bounds hn hd).2 (by omega)
    have hpow := two_mul_two_zpow_le (not_le.1 hlt)
    have hlt53 : (m : ℚ) * 2 ^ k < 2 ^ 53 * 2 ^ k :=
      mul_lt_mul_of_pos_right (by exact_mod_cast hm) (by positivity)
    linarith
  have hnear := (units_nearest num hd (m * 2 ^ (k - ratioExponent num den).toNat : ℕ)).1
  rw [← mul_two_zpow_eq m hcoarse, ← h, sub_self, abs_zero] at hnear
  rw [magnitude_nearest hn]
  exact sub_eq_zero.1 (abs_nonpos_iff.1 hnear)

/-- A double that is coarser than the units of a ratio is a whole number of them. -/
theorem exists_units_of_abs_eq {y : Binary64} {v : ℚ} (hv : |v| = y.magnitude)
    (h : ratioExponent num den ≤ y.exponent) : ∃ j : ℤ, v = j * 2 ^ ratioExponent num den := by
  have hgrid : y.magnitude = _ := mul_two_zpow_eq y.mantissa h
  obtain hv | hv := (abs_eq y.magnitude_nonneg).1 hv
  · exact ⟨_, hv.trans hgrid⟩
  · exact ⟨-(y.mantissa * 2 ^ (y.exponent - ratioExponent num den).toNat : ℕ), by
      rw [hv, hgrid, Int.cast_neg, neg_mul]⟩

/-- A double that is finer than the units of a ratio lies below `2 ^ 52` of them, and the ratio does
not. -/
theorem finer_lt (hn : 0 < num) (hd : 0 < den) {y : Binary64} (hy : y.IsDouble)
    (h : y.exponent < ratioExponent num den) :
    y.magnitude < 2 ^ 52 * 2 ^ ratioExponent num den ∧
      2 ^ 52 * 2 ^ ratioExponent num den ≤ (num : ℚ) / den := by
  refine ⟨?_, (ratioExponent_bounds hn hd).2 (hy.minExponent_le.trans_lt h)⟩
  have hm : (y.mantissa : ℚ) < 2 ^ 53 := by exact_mod_cast hy.mantissa_lt
  calc y.magnitude < 2 ^ 53 * 2 ^ y.exponent := mul_lt_mul_of_pos_right hm (by positivity)
    _ = 2 ^ 52 * (2 * 2 ^ y.exponent) := by ring
    _ ≤ 2 ^ 52 * 2 ^ ratioExponent num den :=
      mul_le_mul_of_nonneg_left (two_mul_two_zpow_le h) (by positivity)

/-- No double of either sign is nearer to a ratio, and one that is as near makes it a tie. -/
theorem magnitude_nearest_le (negative : Bool) (num : ℕ) (hd : 0 < den) {y : Binary64}
    (hy : y.IsDouble) {v : ℚ} (hv : |v| = y.magnitude) :
    |(nearest negative num den).magnitude - num / den| ≤ |v - (num : ℚ) / den| ∧
      (|v - (num : ℚ) / den| = |(nearest negative num den).magnitude - num / den| →
        v ≠ (nearest negative num den).magnitude → Even (nearest negative num den).mantissa) := by
  obtain rfl | hn := num.eq_zero_or_pos
  · simp +contextual
  rw [magnitude_nearest hn]
  by_cases h : ratioExponent num den ≤ y.exponent
  · obtain ⟨j, rfl⟩ := exists_units_of_abs_eq hv h
    obtain ⟨hle, htie⟩ := units_nearest num hd j
    refine ⟨hle, fun heq hne => even_mantissa_nearest hn (htie heq fun hj => hne ?_)⟩
    rw [hj, Int.cast_natCast]
  · -- The ratio and the double have `2 ^ 52` units between them.
    obtain ⟨hfine, hcoarse⟩ := finer_lt hn hd hy (not_le.1 h)
    have hunits := (units_nearest num hd (2 ^ 52)).1
    rw [Int.cast_pow, Int.cast_ofNat] at hunits
    rw [abs_of_nonpos (by linarith : (2 : ℚ) ^ 52 * 2 ^ ratioExponent num den - num / den ≤ 0)]
      at hunits
    have hv' := (le_abs_self v).trans_eq hv
    have hfar : |v - (num : ℚ) / den| = num / den - v := by
      rw [abs_sub_comm, abs_of_nonneg (by linarith)]
    exact ⟨by linarith, fun heq => by linarith⟩

/-- Rounding does not go past one. -/
theorem one_le_magnitude_nearest (negative : Bool) (hd : 0 < den) (h : den ≤ num) :
    1 ≤ (nearest negative num den).magnitude := by
  have hone : IsDouble ⟨false, 2 ^ 52, -52⟩ :=
    ⟨by norm_num, by decide, (by decide : (-52 : ℤ) ≤ maxExponent), .inl le_rfl⟩
  have hratio : 1 ≤ (num : ℚ) / den := by
    rw [one_le_div (Nat.cast_pos.2 hd)]
    exact_mod_cast h
  have hnear := (magnitude_nearest_le negative num hd hone (v := 1)
    (by norm_num [magnitude])).1
  rw [abs_of_nonpos (by linarith : (1 : ℚ) - num / den ≤ 0)] at hnear
  linarith [neg_abs_le ((nearest negative num den).magnitude - num / den)]

end Nearest

/-! ## The double nearest to a value -/

/-- The double nearest to a value: none is nearer, and if another one is as near, its own mantissa
is even. -/
structure IsNearest (x : Binary64) (q : ℚ) : Prop where
  isDouble : x.IsDouble
  le : ∀ y : Binary64, y.IsDouble → |x.value - q| ≤ |y.value - q|
  even_of_tie : ∀ y : Binary64, y.IsDouble → |y.value - q| = |x.value - q| → y.value ≠ x.value →
    Even x.mantissa

/-- A double that is there is the nearest one. -/
theorem IsNearest.exists_value_eq_iff {x : Binary64} {q : ℚ} (h : x.IsNearest q) :
    (∃ y : Binary64, y.IsDouble ∧ y.value = q) ↔ x.value = q := by
  constructor
  · rintro ⟨y, hy, hq⟩
    have hle := h.le y hy
    rw [hq, sub_self, abs_zero] at hle
    exact sub_eq_zero.1 (abs_nonpos_iff.1 hle)
  · exact fun hx => ⟨x, h.isDouble, hx⟩

theorem isNearest_nearest {negative : Bool} {num den : ℕ} (hd : 0 < den)
    (hfinite : (nearest negative num den).isFinite) :
    (nearest negative num den).IsNearest (if negative then -(num / den) else num / den) := by
  have key (y : Binary64) (hy : y.IsDouble) :=
    magnitude_nearest_le negative num hd hy (v := if negative then -y.value else y.value)
      (by split <;> simp [abs_value])
  have hneg (a b : ℚ) : |a - -b| = |-a - b| := by
    rw [← abs_neg]
    congr 1
    ring
  cases negative with
  | false =>
    refine ⟨isDouble_nearest hd hfinite, fun y hy => ?_, fun y hy => ?_⟩
    · exact value_nearest .. ▸ (key y hy).1
    · exact value_nearest .. ▸ (key y hy).2
  | true =>
    simp only [if_true] at key ⊢
    refine ⟨isDouble_nearest hd hfinite, fun y hy => ?_, fun y hy heq hne => ?_⟩
    all_goals simp only [value_nearest, if_true, hneg, neg_neg] at *
    · exact (key y hy).1
    · exact (key y hy).2 heq fun h => hne (neg_eq_iff_eq_neg.1 h)

theorem cast_ofInt_ratio (n : ℤ) :
    (if decide (n < 0) then -((n.natAbs : ℚ) / (1 : ℕ)) else (n.natAbs : ℚ) / (1 : ℕ)) = n := by
  have hcast : ((n.natAbs : ℤ) : ℚ) = n.natAbs := Int.cast_natCast _
  rw [Nat.cast_one, div_one, ← hcast]
  by_cases h : n < 0
  · simp [h, abs_of_neg h]
  · simp [h, abs_of_nonneg (not_lt.1 h)]

/-- Integers of 64 bits stay in the format. -/
theorem isFinite_nearest_of_le {negative : Bool} {k : ℕ} (h : k ≤ 2 ^ 64) :
    (nearest negative k 1).isFinite := by
  refine isFinite_nearest Nat.one_pos ?_
  have hk : (k : ℚ) ≤ 2 ^ 64 := by exact_mod_cast h
  have hpow : (2 : ℚ) ^ (12 : ℤ) ≤ 2 ^ maxExponent := zpow_le_zpow_right₀ one_le_two (by decide)
  calc (k : ℚ) / (1 : ℕ) = k := by rw [Nat.cast_one, div_one]
    _ ≤ (2 ^ 53 - 1) * 2 ^ (12 : ℤ) := hk.trans (by norm_num)
    _ ≤ (2 ^ 53 - 1) * 2 ^ maxExponent := mul_le_mul_of_nonneg_left hpow (by norm_num)

/-- An integer of 64 bits is rounded to the double nearest to it. -/
theorem isNearest_ofInt {n : ℤ} (h : n.natAbs ≤ 2 ^ 64) : (ofInt n).IsNearest n := by
  rw [← cast_ofInt_ratio n]
  exact isNearest_nearest Nat.one_pos (isFinite_nearest_of_le h)

end CommandSchema.Binary64
