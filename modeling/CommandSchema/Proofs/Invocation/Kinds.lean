import CommandSchema.Proofs.Except
import CommandSchema.Proofs.Invocation.Options

/-!
# The kinds of values that options take

Whether a command accepts options depends on the kinds of values alone: every field that has to be
supplied is, and whatever is supplied has the kind that the type of its field is made from.

* `Json.HasShape`: a value of a kind, or an array of such values.
* `Field.exists_ofJson_iff`: the values that a field takes.
* `Command.exists_bind_iff`: the options that a command accepts.
-/

namespace CommandSchema

/-- The value is of a kind or, if it has to be an array, an array of values of that kind. -/
def Json.HasShape (isArray : Bool) (kind : Kind) (v : Json) : Prop :=
  if isArray then ∃ items, v = .array items ∧ ∀ item ∈ items, item.kind = kind else v.kind = kind

/-- A value is made exactly of what has the kind that the type is made from. -/
theorem FieldType.exists_ofJson?_iff {t : FieldType} {v : Json} :
    (∃ value, t.ofJson? v = some value) ↔ v.kind = t.jsonKind := by
  cases v with
  | string s => cases t <;> simp [ofJson?, ofText?, Json.kind, jsonKind]
  | number n => cases t <;> simp [ofJson?, ofNumber?, Json.kind, jsonKind]
  | boolean b => cases t <;> simp [ofJson?, Json.kind, jsonKind]
  | null | array | object => cases t <;> simp [ofJson?, Json.kind, jsonKind]

namespace Field

theorem exists_ofJson_iff {f : Field} {v : Json} :
    (∃ value, f.ofJson v = .ok value) ↔ v.HasShape f.isArray f.type.jsonKind := by
  have helement : ∀ j, (∃ value, f.type.ofJson f.name j = .ok value) ↔
      j.kind = f.type.jsonKind := by
    intro j
    simp only [FieldType.ofJson_eq_ok_iff, FieldType.exists_ofJson?_iff]
  unfold ofJson Json.HasShape
  cases f.isArray with
  | false => exact helement v
  | true =>
    simp only [if_true]
    cases v with
    | array items =>
      have hitems : (∃ value, (items.mapM (f.type.ofJson f.name)).map Value.array = .ok value) ↔
          ∃ values, items.mapM (f.type.ofJson f.name) = .ok values := by
        cases items.mapM (f.type.ofJson f.name) <;> simp [Except.map]
      simp only [hitems, exists_mapM_iff, helement, Json.array.injEq, exists_eq_left']
    | _ => simp

/-- A field can be bound if it is supplied or need not be, and what is supplied is a value for it. -/
theorem exists_bind_iff {f : Field} {members : List (String × Json)} :
    (∃ o, f.bind members = .ok o) ↔
      (f.mayBeAbsent = false → ∃ j, Json.member? members f.name = some j ∧ j ≠ .null) ∧
        ∀ j, Json.member? members f.name = some j → j ≠ .null →
          j.HasShape f.isArray f.type.jsonKind := by
  simp only [bind_eq_ok_iff]
  constructor
  · rintro ⟨o, ⟨j, v, hj, hv, -⟩ | ⟨hj, hmay, -⟩⟩
    · obtain ⟨hmember, hnull⟩ := member?_eq_some_iff.1 hj
      refine ⟨fun _ => ⟨j, hmember, hnull⟩, fun j' hmember' _ => ?_⟩
      obtain rfl := Option.some.inj (hmember.symm.trans hmember')
      exact exists_ofJson_iff.1 ⟨v, hv⟩
    · refine ⟨fun hnot => absurd hmay (by simp [hnot]), fun j hmember hnull => ?_⟩
      rw [member?_eq_some_iff.2 ⟨hmember, hnull⟩] at hj
      cases hj
  · rintro ⟨hpresent, hshape⟩
    cases hm : f.member? members with
    | some j =>
      obtain ⟨hmember, hnull⟩ := member?_eq_some_iff.1 hm
      obtain ⟨v, hv⟩ := exists_ofJson_iff.2 (hshape j hmember hnull)
      exact ⟨some v, .inl ⟨j, v, rfl, hv, rfl⟩⟩
    | none =>
      refine ⟨none, .inr ⟨rfl, ?_, rfl⟩⟩
      refine eq_true_of_ne_false fun hnot => ?_
      obtain ⟨j, hj⟩ := hpresent hnot
      rw [member?_eq_some_iff.2 hj] at hm
      cases hm

end Field

/-- A command with fields accepts an object that supplies every field that has to be supplied, and
for each field that it supplies a value of its kind; and nothing else. -/
theorem Command.exists_bind_iff {c : Command} (hc : c.fields ≠ []) {v : Json} :
    (∃ r, c.bind v = .ok r) ↔
      ∃ members, v = .object members ∧ ∀ f ∈ c.fields,
        (f.mayBeAbsent = false → ∃ j, Json.member? members f.name = some j ∧ j ≠ .null) ∧
          ∀ j, Json.member? members f.name = some j → j ≠ .null →
            j.HasShape f.isArray f.type.jsonKind := by
  have hempty : ¬ c.fields.isEmpty = true := by simpa using hc
  cases v with
  | object members =>
    simp only [bind_object_eq_ok_iff hc, exists_and_left, exists_eq, and_true,
      Field.exists_bind_iff, Json.object.injEq, exists_eq_left']
  | _ => simp [bind, hempty]

end CommandSchema
