import CommandSchema.Invocation.Options
import CommandSchema.Proofs.Except
import CommandSchema.Proofs.Record
import CommandSchema.Proofs.Schema.Written

/-!
# What options supply

The fields of a command are bound one by one and independently of each other: a record is built
exactly if every one of them can be bound, and each member then holds what its own field was bound
to.

* `Field.bound?`: what an object supplies for a field.
* `namedValues`: values of some of the fields, each under the name of its field.
* `Command.boundValues`: what it supplies for all of them.
* `Command.bind_object_eq_ok_iff`: the objects that are accepted, and the record of each.
-/

namespace CommandSchema

theorem FieldType.ofJson_eq_ok_iff {t : FieldType} {field : String} {j : Json} {v : Value} :
    t.ofJson field j = .ok v ↔ t.ofJson? j = some v := by
  rw [ofJson]
  cases t.ofJson? j with
  | none => simp
  | some w => simp

namespace Field

/-- Null supplies nothing. -/
theorem member?_eq_some_iff {f : Field} {members : List (String × Json)} {j : Json} :
    f.member? members = some j ↔ Json.member? members f.name = some j ∧ j ≠ .null := by
  unfold member?
  cases Json.member? members f.name with
  | none => simp
  | some v =>
    cases v with
    | null =>
      constructor
      · intro h
        cases h
      · rintro ⟨h, hn⟩
        exact absurd (Option.some.inj h).symm hn
    | _ =>
      constructor
      · intro h
        cases h
        exact ⟨rfl, by simp⟩
      · rintro ⟨h, -⟩
        exact h

/-- A field that is no array is made as its type says. -/
theorem ofJson?_of_ofJson {f : Field} (ha : f.isArray = false) {j : Json} {v : Value}
    (h : f.ofJson j = .ok v) : f.type.ofJson? j = some v := by
  unfold ofJson at h
  rw [ha, if_neg (by decide)] at h
  exact FieldType.ofJson_eq_ok_iff.1 h

/-- An array is made of an array, element by element. -/
theorem forall₂_of_ofJson {f : Field} (ha : f.isArray = true) {j : Json} {v : Value}
    (h : f.ofJson j = .ok v) : ∃ elements vs, j = .array elements ∧ v = .array vs ∧
      List.Forall₂ (fun j v => f.type.ofJson? j = some v) elements vs := by
  unfold ofJson at h
  rw [if_pos ha] at h
  cases j with
  | array elements =>
    obtain ⟨vs, hvs, rfl⟩ := map_eq_ok_iff.1 h
    refine ⟨elements, vs, rfl, rfl, ?_⟩
    exact (mapM_eq_ok_iff.1 hvs).imp fun j v hv => FieldType.ofJson_eq_ok_iff.1 hv
  | _ => simp at h

/-- The value that an object supplies for a field, where one can be made of it. -/
def bound? (f : Field) (members : List (String × Json)) : Option Value :=
  (f.bind members).toOption.join

theorem bound?_of_bind {f : Field} {members : List (String × Json)} {o : Option Value}
    (h : f.bind members = .ok o) : f.bound? members = o := by
  rw [bound?, h]
  rfl

/-- A member that is there has to be a value of the field; a member that is not has to be one that
may be absent. -/
theorem bind_eq_ok_iff {f : Field} {members : List (String × Json)} {o : Option Value} :
    f.bind members = .ok o ↔
      (∃ j v, f.member? members = some j ∧ f.ofJson j = .ok v ∧ o = some v) ∨
        (f.member? members = none ∧ f.mayBeAbsent = true ∧ o = none) := by
  unfold bind
  cases hm : f.member? members with
  | some j =>
    cases hj : f.ofJson j with
    | error e => simp [Except.map, hj]
    | ok v => simpa [Except.map, hj] using eq_comm
  | none =>
    by_cases ha : f.mayBeAbsent = true
    · simpa [ha] using eq_comm
    · simp [ha]

end Field

/-! ## Values of fields -/

/-- The values of the fields that have one, under the names of the fields. -/
def namedValues (value? : Field → Option Value) (fields : List Field) : List (String × Value) :=
  fields.filterMap fun f => (value? f).map fun v => (f.name, v)

section NamedValues

variable {value? : Field → Option Value} {fields : List Field}

theorem namedValues_cons (f : Field) :
    namedValues value? (f :: fields) =
      ((value? f).map fun v => (f.name, v)).toList ++ namedValues value? fields := by
  rw [namedValues, List.filterMap_cons]
  cases value? f <;> rfl

theorem mem_namedValues {p : String × Value} :
    p ∈ namedValues value? fields ↔ ∃ f ∈ fields, f.name = p.1 ∧ value? f = some p.2 := by
  simp only [namedValues, List.mem_filterMap, Option.map_eq_some_iff, Prod.ext_iff]
  constructor
  · rintro ⟨f, hf, v, hv, hn, rfl⟩
    exact ⟨f, hf, hn, hv⟩
  · rintro ⟨f, hf, hn, hv⟩
    exact ⟨f, hf, p.2, hv, hn, rfl⟩

theorem nodup_namedValues (h : (fields.map (·.name)).Nodup) :
    ((namedValues value? fields).map (·.1)).Nodup := by
  have hsub : List.Sublist ((namedValues value? fields).map (·.1)) (fields.map (·.name)) := by
    clear h
    induction fields with
    | nil => exact .slnil
    | cons f fields ih =>
      rw [namedValues_cons, List.map_append, List.map_cons]
      cases value? f with
      | none => exact ih.cons _
      | some v => exact ih.cons_cons _
  exact hsub.nodup h

theorem lookup_namedValues (h : (fields.map (·.name)).Nodup) {f : Field} (hf : f ∈ fields) :
    (namedValues value? fields).lookup f.name = value? f := by
  refine Option.ext fun v => ?_
  rw [lookup_eq_some_iff_mem (nodup_namedValues h), mem_namedValues]
  constructor
  · rintro ⟨g, hg, hn, hv⟩
    exact List.inj_on_of_nodup_map h hg hf hn ▸ hv
  · intro hv
    exact ⟨f, hf, rfl, hv⟩

/-- Each member holds the value of its own field, or what it starts with. -/
theorem get?_setAll_namedValues {c : Command} (h : (c.fields.map (·.name)).Nodup) {f : Field}
    (hf : f ∈ c.fields) :
    (c.initialRecord.setAll (namedValues value? c.fields)).get? f.name =
      some (((value? f).map Slot.set).getD f.initialSlot) := by
  rw [Record.get?_setAll_of_nodup _ (nodup_namedValues h), Command.get?_initialRecord h hf,
    lookup_namedValues h hf, Option.map_some]

end NamedValues

namespace Command

/-- The values that an object supplies for the fields of a command, with the names of their
members. -/
def boundValues (c : Command) (members : List (String × Json)) : List (String × Value) :=
  namedValues (·.bound? members) c.fields

theorem bindFields_cons_of_ok {members : List (String × Json)} {f : Field} {o : Option Value}
    (h : f.bind members = .ok o) (fields : List Field) :
    bindFields members (f :: fields) =
      (bindFields members fields).map ((o.map fun v => (f.name, v)).toList ++ ·) := by
  rw [bindFields, h]
  rfl

theorem bindFields_cons_of_error {members : List (String × Json)} {f : Field} {e : BindError}
    (h : f.bind members = .error e) (fields : List Field) :
    bindFields members (f :: fields) = .error e := by
  rw [bindFields, h]
  rfl

/-- Fields are bound if each of them is. -/
theorem bindFields_of_forall {members : List (String × Json)} {fields : List Field}
    (h : ∀ f ∈ fields, ∃ o, f.bind members = .ok o) :
    bindFields members fields =
      .ok (namedValues (·.bound? members) fields) := by
  induction fields with
  | nil => rfl
  | cons f fields ih =>
    obtain ⟨o, ho⟩ := h f List.mem_cons_self
    rw [bindFields_cons_of_ok ho, ih fun g hg => h g (List.mem_cons_of_mem _ hg),
      namedValues_cons, Field.bound?_of_bind ho]
    rfl

/-- Fields are bound only if each of them is. -/
theorem forall_of_bindFields {members : List (String × Json)} {fields : List Field}
    {values : List (String × Value)} (h : bindFields members fields = .ok values) :
    ∀ f ∈ fields, ∃ o, f.bind members = .ok o := by
  induction fields generalizing values with
  | nil => simp
  | cons f fields ih =>
    cases hf : f.bind members with
    | error e => simp [bindFields_cons_of_error hf] at h
    | ok o =>
      cases hr : bindFields members fields with
      | error e => simp [bindFields_cons_of_ok hf, hr, Except.map] at h
      | ok rest => exact List.forall_mem_cons.2 ⟨⟨o, hf⟩, ih hr⟩

/-- The record that an object supplies to a command with fields. -/
theorem bind_object_eq_ok_iff {c : Command} (hc : c.fields ≠ []) {members : List (String × Json)}
    {r : Record} :
    c.bind (.object members) = .ok r ↔
      (∀ f ∈ c.fields, ∃ o, f.bind members = .ok o) ∧
        r = c.initialRecord.setAll (c.boundValues members) := by
  have he : c.fields.isEmpty = false := by simpa using hc
  rw [bind, he, if_neg (by simp)]
  constructor
  · intro h
    cases hb : bindFields members c.fields with
    | error e => simp [hb, Except.map] at h
    | ok values =>
      have hall := forall_of_bindFields hb
      refine ⟨hall, ?_⟩
      simpa [bindFields_of_forall hall, boundValues, Except.map, eq_comm] using h
  · rintro ⟨hall, rfl⟩
    simp only [bindFields_of_forall hall]
    rfl

theorem bind_of_fields_eq_nil {c : Command} (hc : c.fields = []) (v : Json) :
    c.bind v = .ok c.initialRecord := by
  simp [bind, hc]

/-- The record that an object supplies to any command. -/
theorem of_bind_object {c : Command} {members : List (String × Json)} {r : Record}
    (h : c.bind (.object members) = .ok r) :
    (∀ f ∈ c.fields, ∃ o, f.bind members = .ok o) ∧
      r = c.initialRecord.setAll (c.boundValues members) := by
  by_cases hc : c.fields = []
  · rw [bind_of_fields_eq_nil hc] at h
    obtain rfl := Except.ok.inj h
    rw [boundValues, hc]
    exact ⟨by simp, rfl⟩
  · exact (bind_object_eq_ok_iff hc).1 h

end Command

end CommandSchema
