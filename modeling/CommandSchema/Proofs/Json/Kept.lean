import CommandSchema.Json.Reader
import CommandSchema.Proofs.Binary64.Nearest

/-!
# The numbers of JSON texts

A number that a text writes is an integer of 64 bits or a finite double, however it is written and
wherever it stands.

* `Number.IsKept`, `IsKept`: the numbers there are, and the values with no others.
* `Number.isKept_of_ofLiteral?`: a literal is kept as one of them.
* `isKept_of_read?`: a text writes no other numbers.
-/

namespace CommandSchema.Json

open Binary64

namespace Number

/-- The numbers that a literal is kept as: an integer of 64 bits, signed or unsigned, or a finite
double. -/
def IsKept : Number → Prop
  | .integer n => -2 ^ 63 ≤ n ∧ n < 2 ^ 64
  | .real x => x.IsDouble

/-! ## Literals -/

theorem num_powerOfTen_pos (k : ℕ) : 0 < (powerOfTen k).num := by
  have hone : 1 ≤ (powerOfTen k).magnitude :=
    one_le_magnitude_nearest false Nat.one_pos (Nat.pow_pos (by norm_num))
  have hden : (0 : ℚ) < (powerOfTen k).den := Nat.cast_pos.2 (powerOfTen k).den_pos
  have hnum : (0 : ℚ) < (powerOfTen k).num := by
    rw [cast_num]
    positivity
  exact_mod_cast hnum

/-- Dividing by a power of ten stays in the format. -/
theorem isDouble_div_powerOfTen {x : Binary64} (hx : x.IsDouble) (k : ℕ) :
    (x.div (powerOfTen k)).IsDouble := by
  have hone : 1 ≤ (powerOfTen k).magnitude :=
    one_le_magnitude_nearest false Nat.one_pos (Nat.pow_pos (by norm_num))
  have hd : 0 < x.den * (powerOfTen k).num := Nat.mul_pos x.den_pos (num_powerOfTen_pos k)
  have hratio : ((x.num * (powerOfTen k).den : ℕ) : ℚ) / (x.den * (powerOfTen k).num : ℕ) =
      x.magnitude / (powerOfTen k).magnitude := by
    have hx0 : (x.den : ℚ) ≠ 0 := Nat.cast_ne_zero.2 x.den_pos.ne'
    have hp0 : ((powerOfTen k).den : ℚ) ≠ 0 := Nat.cast_ne_zero.2 (powerOfTen k).den_pos.ne'
    have hm0 : (powerOfTen k).magnitude ≠ 0 := by positivity
    push_cast
    rw [cast_num, cast_num]
    field_simp
  refine isDouble_nearest hd (isFinite_nearest hd ?_)
  rw [hratio]
  exact (div_le_self x.magnitude_nonneg hone).trans hx.magnitude_le

theorem isDouble_scale? {x y : Binary64} {exponent : ℤ} (hx : x.IsDouble)
    (h : scale? x exponent = some y) : y.IsDouble := by
  unfold scale? at h
  split_ifs at h
  · obtain rfl := Option.some.inj h
    exact ⟨by norm_num, le_rfl, (by decide : minExponent ≤ maxExponent), .inr rfl⟩
  · obtain rfl := Option.some.inj h
    exact isDouble_div_powerOfTen (isDouble_div_powerOfTen hx _) _
  · obtain rfl := Option.some.inj h
    exact isDouble_div_powerOfTen hx _
  · dsimp only at h
    split_ifs at h with hfinite
    obtain rfl := Option.some.inj h
    exact isDouble_nearest (Nat.mul_pos x.den_pos (powerOfTen _).den_pos) hfinite

theorem takeDigits_le {s : ℕ} (hs : s ≤ maxSignificand) (digits : List ℕ) :
    (takeDigits s digits).1 ≤ maxSignificand := by
  induction digits generalizing s with
  | nil => exact hs
  | cons d ds ih =>
    rw [takeDigits]
    split_ifs with h
    · exact ih h
    · exact hs

theorem isKept_real? {negative : Bool} {significand : ℕ} {exponent : ℤ} {n : Number}
    (hs : significand ≤ maxSignificand) (h : real? negative significand exponent = some n) :
    n.IsKept := by
  obtain ⟨x, hx, rfl⟩ := Option.map_eq_some_iff.1 h
  have hsignificand : (Binary64.ofNat significand).IsDouble :=
    isDouble_nearest Nat.one_pos (isFinite_nearest_of_le (hs.trans (by decide)))
  have hscaled := isDouble_scale? hsignificand hx
  cases negative with
  | false => exact hscaled
  | true => exact ⟨hscaled.mantissa_lt, hscaled.minExponent_le, hscaled.exponent_le, hscaled.normal⟩

theorem isKept_ofDigits? {negative : Bool} {digits : List ℕ} {n : Number}
    (h : ofDigits? negative digits = some n) : n.IsKept := by
  have hs := takeDigits_le (Nat.zero_le maxSignificand) digits
  unfold ofDigits? at h
  generalize takeDigits 0 digits = taken at h hs
  dsimp only at h
  split_ifs at h with hall hpositive hlimit
  · exact isKept_real? hs h
  · obtain rfl := Option.some.inj h
    simp only [IsKept, maxSignificand, Nat.pow_eq] at hs ⊢
    omega
  · obtain rfl := Option.some.inj h
    rw [Bool.and_eq_true, decide_eq_true_eq, decide_eq_true_eq] at hlimit
    simp only [IsKept, signedLimit, Nat.pow_eq] at hlimit ⊢
    omega
  · exact isKept_real? hs h

theorem isKept_of_ofLiteral? {negative : Bool} {whole : List ℕ} {fraction : Option (List ℕ)}
    {exponent : Option ℤ} {n : Number}
    (h : ofLiteral? negative whole fraction exponent = some n) : n.IsKept := by
  unfold ofLiteral? at h
  split_ifs at h
  · exact isKept_ofDigits? h
  · exact isKept_real? (takeDigits_le (takeDigits_le (Nat.zero_le _) _) _) h

end Number

/-! ## Texts -/

/-- Every number of the value is one that a literal is kept as. -/
inductive IsKept : Json → Prop where
  | null : IsKept .null
  | boolean (b : Bool) : IsKept (.boolean b)
  | number {n : Number} (h : n.IsKept) : IsKept (.number n)
  | string (s : String) : IsKept (.string s)
  | array {items : List Json} (h : ∀ v ∈ items, IsKept v) : IsKept (.array items)
  | object {members : List (String × Json)} (h : ∀ m ∈ members, IsKept m.2) :
    IsKept (.object members)

theorem IsKept.number_inv {n : Number} (h : IsKept (.number n)) : n.IsKept := by
  cases h with
  | number h => exact h

theorem IsKept.of_mem {items : List Json} (h : IsKept (.array items)) {v : Json} (hv : v ∈ items) :
    v.IsKept := by
  cases h with
  | array h => exact h v hv

theorem IsKept.of_member? {members : List (String × Json)} (h : IsKept (.object members))
    {key : String} {v : Json} (hv : member? members key = some v) : v.IsKept := by
  obtain ⟨before, after, rfl, -⟩ := List.lookup_eq_some_iff.1 hv
  cases h with
  | object h => exact h (key, v) (by simp)

theorem isKept_of_readMagnitude? {negative : Bool} {cs rest : List Char} {v : Json}
    (h : readMagnitude? negative cs = some (v, rest)) : v.IsKept := by
  simp only [readMagnitude?, bind, Option.bind_eq_some_iff, pure, Option.some.injEq,
    Prod.mk.injEq] at h
  obtain ⟨_, -, _, -, _, -, n, hn, rfl, -⟩ := h
  exact .number (Number.isKept_of_ofLiteral? hn)

theorem isKept_of_readScalar? {cs rest : List Char} {v : Json}
    (h : readScalar? cs = some (v, rest)) : v.IsKept := by
  unfold readScalar? at h
  split at h
  · cases h
    exact .null
  · cases h
    exact .boolean true
  · cases h
    exact .boolean false
  · obtain ⟨_, -, he⟩ := Option.map_eq_some_iff.1 h
    cases he
    exact .string _
  · exact isKept_of_readMagnitude? h
  · exact isKept_of_readMagnitude? h

theorem mem_of_mem_keepLast {members : List (String × Json)} {m : String × Json}
    (h : m ∈ keepLast members) : m ∈ members := by
  induction members with
  | nil => exact h
  | cons x members ih =>
    rw [keepLast] at h
    split_ifs at h
    · exact List.mem_cons_of_mem _ (ih h)
    · obtain rfl | h := List.mem_cons.1 h
      · exact List.mem_cons_self
      · exact List.mem_cons_of_mem _ (ih h)

/-- The readers of values, items and members pass on what the reader of literals gives. -/
theorem isKept_of_readers (fuel : ℕ) :
    (∀ depth cs v rest, readValue? fuel depth cs = some (v, rest) → v.IsKept) ∧
    (∀ depth cs items rest, readItems? fuel depth cs = some (items, rest) →
      ∀ v ∈ items, IsKept v) ∧
    ∀ depth cs members rest, readMembers? fuel depth cs = some (members, rest) →
      ∀ m ∈ members, IsKept m.2 := by
  induction fuel with
  | zero =>
    refine ⟨fun _ _ _ _ h => ?_, fun _ _ _ _ h => ?_, fun _ _ _ _ h => ?_⟩
    all_goals cases h
  | succ fuel ih =>
    obtain ⟨hvalue, hitems, hmembers⟩ := ih
    refine ⟨fun depth cs v rest h => ?_, fun depth cs items rest h => ?_,
      fun depth cs members rest h => ?_⟩
    · rw [readValue?] at h
      split at h
      · split_ifs at h
        split at h
        · cases h
          exact .array (by simp)
        · obtain ⟨r, hr, he⟩ := Option.map_eq_some_iff.1 h
          cases he
          exact .array (hitems _ _ _ _ hr)
      · split_ifs at h
        split at h
        · cases h
          exact .object (by simp)
        · obtain ⟨r, hr, he⟩ := Option.map_eq_some_iff.1 h
          cases he
          exact .object fun m hm => hmembers _ _ _ _ hr m (mem_of_mem_keepLast hm)
      · exact isKept_of_readScalar? h
    · rw [readItems?] at h
      split at h
      · cases h
      · next v cs' hv =>
        split at h
        · cases h
          simpa using hvalue _ _ _ _ hv
        · obtain ⟨r, hr, he⟩ := Option.map_eq_some_iff.1 h
          cases he
          exact List.forall_mem_cons.2 ⟨hvalue _ _ _ _ hv, hitems _ _ _ _ hr⟩
        · cases h
    · rw [readMembers?] at h
      split at h
      · cases h
      · split at h
        · cases h
        · next v cs' hv =>
          split at h
          · cases h
            simpa using hvalue _ _ _ _ hv
          · obtain ⟨r, hr, he⟩ := Option.map_eq_some_iff.1 h
            cases he
            exact List.forall_mem_cons.2 ⟨hvalue _ _ _ _ hv, hmembers _ _ _ _ hr⟩
          · cases h

/-- A text writes no other numbers. -/
theorem isKept_of_read? {text : String} {v : Json} (h : read? text = some v) : v.IsKept := by
  unfold read? at h
  dsimp only at h
  split at h
  · cases h
  · next v' rest hv =>
    split_ifs at h
    cases h
    exact (isKept_of_readers _).1 _ _ _ _ hv

end CommandSchema.Json
