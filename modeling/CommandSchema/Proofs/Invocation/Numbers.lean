import CommandSchema.Proofs.Invocation.Bound
import CommandSchema.Proofs.Json.Number

/-!
# Numbers of options

A field that holds an integer takes any number and brings it into 32 bits. The numbers of a script
are doubles; a number of a JSON text may be an integer with more bits than a double has, and is then
not rounded first.

* `FieldType.ofJson_number`: the value of a number.
* `Json.inDoubles`: a value as a script has it.
* `Command.bind_inDoubles`: the records of a JSON text and of a script.
-/

namespace CommandSchema

/-! ## One number -/

/-- A field of integers takes every number, and keeps of its integer part all but the high bits. No
number saturates, a fraction without an integer before it gives zero, and what the double becomes
before it is cut into 32 bits is in their range. -/
theorem FieldType.ofJson_number {n : Json.Number} (hn : n.IsKept) (field : String) :
    ∃ k : Int32,
      FieldType.int.ofJson field (.number n) = .ok (.int k) ∧
      FieldType.duration.ofJson field (.number n) = .ok (.duration k) ∧
      k.toInt ≡ integerPart n.workedValue [ZMOD 2 ^ 32] ∧
      (|n.workedValue| < 1 → k = 0) ∧
      ∃ w : ℤ, (n.toDouble.trunc.remEuclid (.ofNat (Nat.pow 2 32))).value = w ∧
        0 ≤ w ∧ w < 2 ^ 32 := by
  have hk := Json.Number.toInt32_eq_ofInt hn
  refine ⟨n.toInt32, rfl, rfl, Text.eq_ofInt_iff_modEq.1 hk, fun hsmall => ?_, _,
    Binary64.value_remEuclid_trunc (Json.Number.toDouble_isDouble hn), ?_, ?_⟩
  · rw [hk, integerPart_eq_zero hsmall]
    rfl
  · exact Int.emod_nonneg _ (by norm_num)
  · exact Int.emod_lt_of_pos _ (by norm_num)

/-- Just above `-2 ^ 33` the integer part is `1 - 2 ^ 33`. -/
theorem FieldType.ofJson_number_fraction :
    let n : Json.Number := .real ⟨true, 2 ^ 53 - 1, -20⟩
    n.IsKept ∧ ∃ k : Int32, FieldType.int.ofJson "days" (.number n) = .ok (.int k) ∧
      k.toInt ≡ 1 - 2 ^ 33 [ZMOD 2 ^ 32] := by
  intro n
  have hn : n.IsKept := ⟨by norm_num, by decide, (by decide : (-20 : ℤ) ≤ Binary64.maxExponent),
    .inl (by norm_num)⟩
  obtain ⟨k, hint, -, hmod, -⟩ := FieldType.ofJson_number hn "days"
  have hpart : integerPart n.workedValue = 1 - 2 ^ 33 :=
    (Binary64.integerPart_value ⟨true, 2 ^ 53 - 1, -20⟩).trans (by decide)
  exact ⟨hn, k, hint, hpart ▸ hmod⟩

/-! ## Doubles -/

namespace Json

mutual

/-- The value as a script has it: every number is a double. -/
def inDoubles : Json → Json
  | .null => .null
  | .boolean b => .boolean b
  | .number n => .number (.real n.toDouble)
  | .string s => .string s
  | .array items => .array (itemsInDoubles items)
  | .object members => .object (membersInDoubles members)

/-- The items of an array as a script has them. -/
def itemsInDoubles : List Json → List Json
  | [] => []
  | v :: items => inDoubles v :: itemsInDoubles items

/-- The members of an object as a script has them. -/
def membersInDoubles : List (String × Json) → List (String × Json)
  | [] => []
  | (k, v) :: members => (k, inDoubles v) :: membersInDoubles members

end

theorem member?_membersInDoubles (members : List (String × Json)) (key : String) :
    member? (membersInDoubles members) key = (member? members key).map inDoubles := by
  induction members with
  | nil => rfl
  | cons m members ih =>
    obtain ⟨k, v⟩ := m
    simp only [member?, membersInDoubles, List.lookup_cons] at ih ⊢
    cases key == k with
    | true => rfl
    | false => exact ih

/-- A number that a value supplies to a field: itself, or an element of an array. -/
inductive Supplies : Json → Number → Prop where
  | scalar (n : Number) : Supplies (.number n) n
  | element {items : List Json} {n : Number} (mem : .number n ∈ items) : Supplies (.array items) n

end Json

/-- A value is made of the double where one is made of the number, and it is the same exactly where
the number is exact. -/
theorem FieldType.ofJson?_inDoubles {t : FieldType} {j : Json} {v : Value} (hkept : j.IsKept)
    (h : t.ofJson? j = some v) :
    ∃ v', t.ofJson? j.inDoubles = some v' ∧ (v' = v ↔ ∀ n, j = .number n → n.IsExact) := by
  cases j with
  | number n =>
    have hiff := Json.Number.toInt32_toDouble_iff hkept.number_inv
    have hsame : (∀ m, Json.number n = .number m → m.IsExact) ↔ n.IsExact := by simp
    rw [hsame, ← hiff]
    cases t with
    | int =>
      obtain rfl := Option.some.inj h
      exact ⟨_, rfl, by simp⟩
    | duration =>
      obtain rfl := Option.some.inj h
      exact ⟨_, rfl, by simp⟩
    | _ => cases h
  | array => cases t <;> cases h
  | object => cases t <;> cases h
  | _ => exact ⟨v, h, by simp⟩

/-- Elements are made one by one. -/
theorem FieldType.forall₂_itemsInDoubles {t : FieldType} {items : List Json} {vs : List Value}
    (hkept : ∀ j ∈ items, j.IsKept)
    (h : List.Forall₂ (fun j v => t.ofJson? j = some v) items vs) :
    ∃ vs', List.Forall₂ (fun j v => t.ofJson? j = some v) (Json.itemsInDoubles items) vs' ∧
      (vs' = vs ↔ ∀ n, Json.number n ∈ items → n.IsExact) := by
  induction h with
  | nil => exact ⟨[], .nil, by simp⟩
  | @cons j v items vs hmade _ ih =>
    obtain ⟨v', hv', heq⟩ := ofJson?_inDoubles (hkept j List.mem_cons_self) hmade
    obtain ⟨vs', hvs', heqs⟩ := ih fun j hj => hkept j (List.mem_cons_of_mem _ hj)
    refine ⟨v' :: vs', .cons hv' hvs', ?_⟩
    rw [List.cons.injEq, heq, heqs]
    simp only [List.mem_cons, or_imp, forall_and, eq_comm]

namespace Field

variable {f : Field} {members : List (String × Json)}

theorem ofJson_inDoubles {j : Json} {v : Value} (hkept : j.IsKept) (h : f.ofJson j = .ok v) :
    ∃ v', f.ofJson j.inDoubles = .ok v' ∧ (v' = v ↔ ∀ n, j.Supplies n → n.IsExact) := by
  simp only [← makes_iff] at h ⊢
  cases h with
  | @array items vs array elements =>
    have hsupplies (n : Json.Number) : (Json.array items).Supplies n ↔ .number n ∈ items := by
      constructor
      · rintro (_ | hmem)
        exact hmem
      · exact .element
    simp only [hsupplies]
    obtain ⟨vs', hvs', heq⟩ :=
      FieldType.forall₂_itemsInDoubles (fun v hv => hkept.of_mem hv) elements
    exact ⟨.array vs', .array array hvs', by rw [Value.array.injEq, heq]⟩
  | scalar scalar made =>
    have hsupplies (n : Json.Number) : j.Supplies n ↔ j = .number n := by
      constructor
      · rintro (_ | _)
        · rfl
        · cases f.type <;> cases made
      · rintro rfl
        exact .scalar n
    simp only [hsupplies]
    obtain ⟨v', hv', heq⟩ := FieldType.ofJson?_inDoubles hkept made
    exact ⟨v', .scalar scalar hv', heq⟩

theorem member?_membersInDoubles :
    f.member? (Json.membersInDoubles members) = (f.member? members).map Json.inDoubles := by
  unfold member?
  rw [Json.member?_membersInDoubles]
  cases Json.member? members f.name with
  | none => rfl
  | some j => cases j <;> rfl

/-- The field is supplied by a script where it is by a text, and by the same value exactly where
every number is exact. -/
theorem bind_inDoubles {o : Option Value} (hkept : (Json.object members).IsKept)
    (h : f.bind members = .ok o) :
    ∃ o', f.bind (Json.membersInDoubles members) = .ok o' ∧ (o'.isSome ↔ o.isSome) ∧
      (o' = o ↔ ∀ j n, Json.member? members f.name = some j → j.Supplies n → n.IsExact) := by
  obtain ⟨j, v, hj, hv, rfl⟩ | ⟨hnone, hmay, rfl⟩ := bind_eq_ok_iff.1 h
  · have hmember := (member?_eq_some_iff.1 hj).1
    obtain ⟨v', hv', heq⟩ := ofJson_inDoubles (hkept.of_member? hmember) hv
    refine ⟨some v', bind_eq_ok_iff.2 (.inl ⟨j.inDoubles, v', ?_, hv', rfl⟩), by simp, ?_⟩
    · rw [member?_membersInDoubles, hj]
      rfl
    · rw [Option.some.injEq, heq]
      constructor
      · intro hexact j' n hj' hsupplies
        obtain rfl := Option.some.inj (hmember.symm.trans hj')
        exact hexact n hsupplies
      · exact fun hexact n => hexact j n hmember
  · refine ⟨none, bind_eq_ok_iff.2 (.inr ⟨?_, hmay, rfl⟩), Iff.rfl, iff_of_true rfl ?_⟩
    · rw [member?_membersInDoubles, hnone]
      rfl
    · intro j n hmember hsupplies
      obtain rfl := member?_eq_none_iff.1 hnone j hmember
      cases hsupplies

end Field

namespace Command

/-- A script's object is accepted where the text's is, and gives the same record exactly where every
number for a field is exact. -/
theorem bind_inDoubles {c : Command} (hnames : (c.fields.map (·.name)).Nodup)
    {members : List (String × Json)} (hkept : (Json.object members).IsKept) {r : Record}
    (h : c.bind (.object members) = .ok r) :
    ∃ r', c.bind (Json.inDoubles (.object members)) = .ok r' ∧
      (r' = r ↔ ∀ f ∈ c.fields, ∀ j n, Json.member? members f.name = some j → j.Supplies n →
        n.IsExact) := by
  obtain ⟨hall, rfl⟩ := of_bind_object h
  obtain hc | hc := eq_or_ne c.fields []
  · refine ⟨_, bind_of_fields_eq_nil hc _, iff_of_true ?_ (by simp [hc])⟩
    rw [boundValues, hc]
    rfl
  have hfield : ∀ f ∈ c.fields, ∃ o o', f.bound? members = o ∧
      f.bound? (Json.membersInDoubles members) = o' ∧
      f.bind (Json.membersInDoubles members) = .ok o' ∧ (o'.isSome ↔ o.isSome) ∧
      (o' = o ↔ ∀ j n, Json.member? members f.name = some j → j.Supplies n → n.IsExact) := by
    intro f hf
    obtain ⟨o, ho⟩ := hall f hf
    obtain ⟨o', ho', hsome, heq⟩ := Field.bind_inDoubles hkept ho
    exact ⟨o, o', Field.bound?_of_bind ho, Field.bound?_of_bind ho', ho', hsome, heq⟩
  refine ⟨c.initialRecord.setAll (c.boundValues (Json.membersInDoubles members)),
    (bind_object_eq_ok_iff hc).2 ⟨fun f hf => ?_, rfl⟩, ?_, ?_⟩
  · obtain ⟨o, o', -, -, ho', -⟩ := hfield f hf
    exact ⟨o', ho'⟩
  · intro hrecord f hf
    obtain ⟨o, o', ho, ho', -, hsome, heq⟩ := hfield f hf
    refine heq.1 ?_
    have hget := congrArg (Record.get? · f.name) hrecord
    simp only [boundValues, get?_setAll_namedValues hnames hf, ho, ho', Option.some.injEq] at hget
    cases o <;> cases o' <;> simp_all
  · intro hexact
    have hvalues : c.boundValues (Json.membersInDoubles members) = c.boundValues members := by
      refine List.filterMap_congr fun f hf => ?_
      obtain ⟨o, o', ho, ho', -, -, heq⟩ := hfield f hf
      simp only [ho, ho', heq.2 (hexact f hf)]
    rw [hvalues]

/-- A signed integer of 64 bits has the 32 bits of the double nearest to it exactly if a double
holds it. So the record of a text is the one of a script exactly where every number that the text
supplies is one that is not rounded on the way. -/
theorem bind_eq_bind_inDoubles_iff {n : ℤ} (hlow : -2 ^ 63 ≤ n) (hhigh : n < 2 ^ 63) :
    (Binary64.ofInt n).IsNearest n ∧
    (∀ x : Binary64, x.IsNearest n →
      (Json.Number.integer n).toInt32.toInt ≡ n [ZMOD 2 ^ 32] ∧
      (Json.Number.real x).toInt32.toInt ≡ integerPart x.value [ZMOD 2 ^ 32] ∧
      ((Json.Number.integer n).toInt32 = (Json.Number.real x).toInt32 ↔
        ∃ y : Binary64, y.IsDouble ∧ y.value = n)) ∧
    (∀ text v, Json.read? text = some v → v.IsKept) ∧
    ∀ c : Command, (c.fields.map (·.name)).Nodup → ∀ members, (Json.object members).IsKept → ∀ r,
      c.bind (.object members) = .ok r →
      ∃ r', c.bind (Json.inDoubles (.object members)) = .ok r' ∧
        (r' = r ↔ ∀ f ∈ c.fields, ∀ j k, Json.member? members f.name = some j → j.Supplies k →
          k.IsExact) := by
  refine ⟨Binary64.isNearest_ofInt (by omega), fun x hx => ⟨?_, ?_, ?_⟩,
    fun _ _ => Json.isKept_of_read?,
    fun c hnames members hkept r h => bind_inDoubles hnames hkept h⟩
  · exact Text.eq_ofInt_iff_modEq.1 (Json.Number.toInt32_integer hhigh)
  · exact Text.eq_ofInt_iff_modEq.1 (Json.Number.toInt32_eq_ofInt (n := .real x) hx.isDouble)
  · exact Json.Number.toInt32_integer_eq_iff hlow hhigh hx

/-- The next integer after `2 ^ 53` that a double holds. -/
theorem bind_eq_bind_inDoubles_trip :
    let trip : Command := ⟨"trip", [⟨"-d", "days", .int, false, false, none⟩]⟩
    let members := [("days", Json.integer (2 ^ 53 + 2))]
    (trip.fields.map (·.name)).Nodup ∧
      (Json.object members).IsKept ∧
      (Json.Number.integer (2 ^ 53 + 2)).toInt32 =
        (Json.Number.real (.ofInt (2 ^ 53 + 2))).toInt32 ∧
      trip.bind (Json.inDoubles (.object members)) = trip.bind (.object members) := by
  intro trip members
  have hnames : (trip.fields.map (·.name)).Nodup := by decide
  have hkept : (Json.object members).IsKept :=
    .object (List.forall_mem_singleton.2 (.number ⟨by norm_num, by norm_num⟩))
  have hlow : (-2 ^ 63 : ℤ) ≤ 2 ^ 53 + 2 := by norm_num
  have hhigh : (2 ^ 53 + 2 : ℤ) < 2 ^ 63 := by norm_num
  obtain ⟨hnearest, hnumber, -, hrecord⟩ := bind_eq_bind_inDoubles_iff hlow hhigh
  have hheld : ∃ y : Binary64, y.IsDouble ∧ y.value = (2 ^ 53 + 2 : ℤ) := by
    refine ⟨⟨false, 2 ^ 52 + 1, 1⟩, ⟨by norm_num, by decide, ?_, .inl (by norm_num)⟩, ?_⟩
    · exact (by decide : (1 : ℤ) ≤ Binary64.maxExponent)
    · norm_num [Binary64.value, Binary64.magnitude]
  have hexact : ∀ f ∈ trip.fields, ∀ j n, Json.member? members f.name = some j →
      j.Supplies n → n.IsExact := by
    intro f hf j n hj hn
    obtain rfl := List.mem_singleton.1 hf
    obtain rfl := Option.some.inj hj
    cases hn
    exact hheld
  obtain ⟨r', hbound, hsame⟩ := hrecord trip hnames members hkept _ rfl
  refine ⟨hnames, hkept, (hnumber _ hnearest).2.2.2 hheld, ?_⟩
  rw [hbound, hsame.2 hexact]
  rfl

/-- The double nearest to `2 ^ 53 + 1` is `2 ^ 53`. -/
theorem not_toInt32_nearest :
    ¬ ∀ n : ℤ, -2 ^ 63 ≤ n → n < 2 ^ 63 → ∀ x : Binary64, x.IsNearest n →
      (Json.Number.integer n).toInt32 = (Json.Number.real x).toInt32 := by
  intro h
  have hnearest := Binary64.isNearest_ofInt (n := 2 ^ 53 + 1) (by norm_num)
  have hsame := h (2 ^ 53 + 1) (by norm_num) (by norm_num) _ hnearest
  revert hsame
  decide +kernel

end Command

end CommandSchema
