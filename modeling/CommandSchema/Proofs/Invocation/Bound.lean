import CommandSchema.Proofs.Invocation.Kinds

/-!
# Records and faults of options

The fields of a command are judged one by one in their order. The first field with a fault decides
the error; without a fault, the record holds what is supplied and is otherwise as the command starts
with it.

* `Field.Fault`: why an object supplies no value for a field.
* `Field.Makes`: the value that is made of what an object supplies.
* `Command.Binds`: the record that an object supplies.
* `Command.SuppliesAlike`: two objects that supply the same.
* `Command.bind_judges`: the result of a command for any script's value.
-/

namespace CommandSchema

/-- Only a value of the kind that the type is made from is no mismatch. -/
theorem FieldType.ofJson_eq_error_iff {t : FieldType} {field : String} {j : Json} {e : BindError} :
    t.ofJson field j = .error e ↔
      j.kind ≠ t.jsonKind ∧ e = .typeMismatch field t.jsonKind j.kind := by
  rw [ofJson]
  cases ho : t.ofJson? j with
  | some v =>
    have hk : j.kind = t.jsonKind := exists_ofJson?_iff.1 ⟨v, ho⟩
    simp [hk]
  | none =>
    have hk : j.kind ≠ t.jsonKind := by
      intro hk
      obtain ⟨v, hv⟩ := exists_ofJson?_iff.2 hk
      rw [ho] at hv
      cases hv
    simp [hk, eq_comm]

namespace Field

/-! ## Statements -/

/-- Why an object supplies no value for a field. A member that is null counts as absent, but a null
inside an array is an element of the wrong kind. -/
inductive Fault (f : Field) (members : List (String × Json)) : BindError → Prop where
  | missing (required : f.isRequired = true)
    (absent : ∀ j, Json.member? members f.name = some j → j = .null) :
    Fault f members (.missingField f.name)
  | notArray {j : Json} (supplied : Json.member? members f.name = some j) (filled : j ≠ .null)
    (array : f.isArray = true) (other : j.kind ≠ .array) :
    Fault f members (.typeMismatch f.name .array j.kind)
  /-- The first element of another kind. -/
  | element {before after : List Json} {j : Json}
    (supplied : Json.member? members f.name = some (.array (before ++ j :: after)))
    (array : f.isArray = true) (fit : ∀ item ∈ before, item.kind = f.type.jsonKind)
    (other : j.kind ≠ f.type.jsonKind) :
    Fault f members (.typeMismatch f.name f.type.jsonKind j.kind)
  | scalar {j : Json} (supplied : Json.member? members f.name = some j) (filled : j ≠ .null)
    (scalar : f.isArray = false) (other : j.kind ≠ f.type.jsonKind) :
    Fault f members (.typeMismatch f.name f.type.jsonKind j.kind)

/-- The value that is made of a script's value: for an array, one element of each, in order. -/
inductive Makes (f : Field) : Json → Value → Prop where
  | array {items : List Json} {vs : List Value} (array : f.isArray = true)
    (elements : List.Forall₂ (fun j v => f.type.ofJson? j = some v) items vs) :
    Makes f (.array items) (.array vs)
  | scalar {j : Json} {v : Value} (scalar : f.isArray = false)
    (made : f.type.ofJson? j = some v) : Makes f j v

end Field

namespace Command

/-- The record that an object supplies: of the members that the command starts with, those are set
that the object has and that are not null. -/
structure Binds (c : Command) (members : List (String × Json)) (r : Record) : Prop where
  name : r.name = c.initialRecord.name
  names : r.names = c.initialRecord.names
  set : ∀ f ∈ c.fields, ∀ j, Json.member? members f.name = some j → j ≠ .null →
    ∃ v, f.Makes j v ∧ r.get? f.name = some (.set v)
  kept : ∀ f ∈ c.fields, (∀ j, Json.member? members f.name = some j → j = .null) →
    r.get? f.name = c.initialRecord.get? f.name

/-- Two objects have the same members for the fields of a command, where null counts as none. -/
def SuppliesAlike (c : Command) (members members' : List (String × Json)) : Prop :=
  ∀ f ∈ c.fields, ∀ j, j ≠ .null →
    (Json.member? members f.name = some j ↔ Json.member? members' f.name = some j)

end Command

/-! ## One field -/

namespace Field

variable {f : Field} {members : List (String × Json)}

theorem member?_eq_none_iff :
    f.member? members = none ↔ ∀ j, Json.member? members f.name = some j → j = .null := by
  rw [Option.eq_none_iff_forall_ne_some]
  constructor
  · intro h j hj
    by_contra hn
    exact h j (member?_eq_some_iff.2 ⟨hj, hn⟩)
  · intro h j hj
    obtain ⟨hj, hn⟩ := member?_eq_some_iff.1 hj
    exact hn (h j hj)

theorem makes_iff {j : Json} {v : Value} : f.Makes j v ↔ f.ofJson j = .ok v := by
  cases ha : f.isArray with
  | false =>
    unfold ofJson
    rw [ha, if_neg (by decide), FieldType.ofJson_eq_ok_iff]
    constructor
    · intro h
      cases h with
      | array array => simp [ha] at array
      | scalar _ made => exact made
    · exact .scalar ha
  | true =>
    constructor
    · intro h
      cases h with
      | array _ elements =>
        unfold ofJson
        rw [if_pos ha]
        refine map_eq_ok_iff.2 ⟨_, mapM_eq_ok_iff.2 ?_, rfl⟩
        exact elements.imp fun j v h => FieldType.ofJson_eq_ok_iff.2 h
      | scalar scalar => simp [ha] at scalar
    · intro h
      obtain ⟨items, vs, rfl, rfl, elements⟩ := forall₂_of_ofJson ha h
      exact .array ha elements

/-- Elements are read up to the first one of another kind. -/
theorem mapM_ofJson_eq_error_iff {items : List Json} {e : BindError} :
    items.mapM (f.type.ofJson f.name) = .error e ↔
      FirstFails (fun item => item.kind = f.type.jsonKind) (fun item e =>
        item.kind ≠ f.type.jsonKind ∧ e = .typeMismatch f.name f.type.jsonKind item.kind)
        items e := by
  simp only [mapM_eq_error_iff, FieldType.ofJson_eq_ok_iff, FieldType.exists_ofJson?_iff,
    FieldType.ofJson_eq_error_iff]

theorem ofJson_eq_error_iff_of_not_isArray (ha : f.isArray = false) {j : Json} {e : BindError} :
    f.ofJson j = .error e ↔
      j.kind ≠ f.type.jsonKind ∧ e = .typeMismatch f.name f.type.jsonKind j.kind := by
  unfold ofJson
  rw [ha, if_neg (by decide), FieldType.ofJson_eq_error_iff]

/-- An array field faults other values as a whole, and arrays for an element. -/
theorem ofJson_eq_error_iff_of_isArray (ha : f.isArray = true) {j : Json} {e : BindError} :
    f.ofJson j = .error e ↔
      j.kind ≠ .array ∧ e = .typeMismatch f.name .array j.kind ∨
      ∃ items, j = .array items ∧
        FirstFails (fun item => item.kind = f.type.jsonKind) (fun item e =>
          item.kind ≠ f.type.jsonKind ∧ e = .typeMismatch f.name f.type.jsonKind item.kind)
          items e := by
  unfold ofJson
  rw [if_pos ha]
  cases j with
  | array items => simp [map_eq_error_iff, mapM_ofJson_eq_error_iff, Json.kind]
  | _ => simp [Json.kind, eq_comm]

theorem fault_iff_of_absent {e : BindError}
    (h : ∀ j, Json.member? members f.name = some j → j = .null) :
    f.Fault members e ↔ f.isRequired = true ∧ e = .missingField f.name := by
  constructor
  · intro hf
    cases hf with
    | missing required => exact ⟨required, rfl⟩
    | notArray supplied filled => exact absurd (h _ supplied) filled
    | element supplied => cases h _ supplied
    | scalar supplied filled => exact absurd (h _ supplied) filled
  · rintro ⟨required, rfl⟩
    exact .missing required h

theorem fault_iff_of_supplied {j : Json} {e : BindError}
    (h : Json.member? members f.name = some j) (hn : j ≠ .null) :
    f.Fault members e ↔ f.ofJson j = .error e := by
  have hsame : ∀ j', Json.member? members f.name = some j' → j = j' :=
    fun j' h' => Option.some.inj (h.symm.trans h')
  constructor
  · intro hf
    cases hf with
    | missing required absent => exact absurd (absent j h) hn
    | notArray supplied filled array other =>
      obtain rfl := hsame _ supplied
      exact (ofJson_eq_error_iff_of_isArray array).2 (.inl ⟨other, rfl⟩)
    | element supplied array fit other =>
      obtain rfl := hsame _ supplied
      exact (ofJson_eq_error_iff_of_isArray array).2
        (.inr ⟨_, rfl, _, _, _, rfl, fit, other, rfl⟩)
    | scalar supplied filled scalar other =>
      obtain rfl := hsame _ supplied
      exact (ofJson_eq_error_iff_of_not_isArray scalar).2 ⟨other, rfl⟩
  · intro he
    cases ha : f.isArray with
    | false =>
      obtain ⟨other, rfl⟩ := (ofJson_eq_error_iff_of_not_isArray ha).1 he
      exact .scalar h hn ha other
    | true =>
      obtain ⟨other, rfl⟩ | ⟨_, rfl, _, _, _, rfl, fit, other, rfl⟩ :=
        (ofJson_eq_error_iff_of_isArray ha).1 he
      · exact .notArray h hn ha other
      · exact .element h ha fit other

/-- A field cannot be bound exactly for its faults. -/
theorem bind_eq_error_iff {e : BindError} : f.bind members = .error e ↔ f.Fault members e := by
  unfold bind
  cases hm : f.member? members with
  | some j =>
    obtain ⟨hj, hn⟩ := member?_eq_some_iff.1 hm
    rw [fault_iff_of_supplied hj hn]
    exact map_eq_error_iff
  | none =>
    rw [fault_iff_of_absent (member?_eq_none_iff.1 hm), isRequired]
    cases f.mayBeAbsent <;> simp [eq_comm]

/-- A field can be bound if it has no fault. -/
theorem exists_bind_iff_forall_not_fault :
    (∃ o, f.bind members = .ok o) ↔ ∀ e, ¬ f.Fault members e := by
  simp only [← bind_eq_error_iff]
  cases f.bind members <;> simp

/-- What is supplied for a field depends on what an object has for it, null counting as absent. -/
theorem bind_congr {members' : List (String × Json)}
    (h : ∀ j, j ≠ .null →
      (Json.member? members f.name = some j ↔ Json.member? members' f.name = some j)) :
    f.bind members = f.bind members' := by
  have hm : f.member? members = f.member? members' := by
    refine Option.ext fun j => ?_
    simp only [member?_eq_some_iff]
    exact and_congr_left (h j)
  unfold bind
  rw [hm]

end Field

/-! ## All fields -/

namespace Command

variable {c : Command} {members : List (String × Json)}

theorem bindFields_eq_error_iff {fields : List Field} {e : BindError} :
    bindFields members fields = .error e ↔
      FirstFails (fun f => ∀ e, ¬ f.Fault members e) (fun f e => f.Fault members e) fields e := by
  induction fields with
  | nil => simp [FirstFails, bindFields]
  | cons f fields ih =>
    rw [firstFails_cons, ← ih, ← Field.exists_bind_iff_forall_not_fault, ← Field.bind_eq_error_iff]
    cases hf : f.bind members with
    | error e' => simp [bindFields_cons_of_error hf]
    | ok o => simp [bindFields_cons_of_ok hf, map_eq_error_iff]

theorem bindFields_congr {members' : List (String × Json)} {fields : List Field}
    (h : ∀ f ∈ fields, f.bind members = f.bind members') :
    bindFields members fields = bindFields members' fields := by
  induction fields with
  | nil => rfl
  | cons f fields ih =>
    obtain ⟨hf, hfields⟩ := List.forall_mem_cons.1 h
    rw [bindFields, bindFields, hf, ih hfields]

/-- Where fields have names of their own, each member holds what its own field was bound to. -/
theorem binds_boundValues (h : (c.fields.map (·.name)).Nodup)
    (hall : ∀ f ∈ c.fields, ∃ o, f.bind members = .ok o) :
    c.Binds members (c.initialRecord.setAll (c.boundValues members)) where
  name := by simp
  names := by simp
  set := by
    intro f hf j hj hn
    obtain ⟨o, ho⟩ := hall f hf
    have hm : f.member? members = some j := Field.member?_eq_some_iff.2 ⟨hj, hn⟩
    rcases Field.bind_eq_ok_iff.1 ho with ⟨j', v, hj', hv, rfl⟩ | ⟨hnone, -⟩
    · obtain rfl := Option.some.inj (hm.symm.trans hj')
      refine ⟨v, Field.makes_iff.2 hv, ?_⟩
      rw [boundValues, get?_setAll_namedValues h hf, Field.bound?_of_bind ho]
      rfl
    · rw [hm] at hnone
      cases hnone
  kept := by
    intro f hf habsent
    obtain ⟨o, ho⟩ := hall f hf
    have hm := Field.member?_eq_none_iff.2 habsent
    rcases Field.bind_eq_ok_iff.1 ho with ⟨j, v, hj, -⟩ | ⟨-, -, rfl⟩
    · rw [hm] at hj
      cases hj
    · rw [boundValues, get?_setAll_namedValues h hf, Field.bound?_of_bind ho,
        get?_initialRecord h hf]
      rfl

/-- An object supplies one record. -/
theorem Binds.unique {r r' : Record} (hr : c.Binds members r) (hr' : c.Binds members r') :
    r = r' := by
  have hnames : r.names = r'.names := hr.names.trans hr'.names.symm
  have hnodup : r.names.Nodup := hr.names ▸ c.nodup_names_initialRecord
  refine Record.eq_of_get? (hr.name.trans hr'.name.symm) hnames hnodup fun n => ?_
  by_cases hn : n ∈ r.names
  · obtain ⟨f, hf, rfl⟩ := List.mem_map.1 (mem_names_initialRecord.1 (hr.names ▸ hn))
    by_cases hs : ∃ j, Json.member? members f.name = some j ∧ j ≠ .null
    · obtain ⟨j, hj, hnull⟩ := hs
      obtain ⟨v, hv, hget⟩ := hr.set f hf j hj hnull
      obtain ⟨v', hv', hget'⟩ := hr'.set f hf j hj hnull
      obtain rfl : v = v' :=
        Except.ok.inj ((Field.makes_iff.1 hv).symm.trans (Field.makes_iff.1 hv'))
      exact hget.trans hget'.symm
    · have habsent : ∀ j, Json.member? members f.name = some j → j = .null :=
        fun j hj => by_contra fun hnull => hs ⟨j, hj, hnull⟩
      exact (hr.kept f hf habsent).trans (hr'.kept f hf habsent).symm
  · rw [Record.get?_eq_none_iff.2 hn, Record.get?_eq_none_iff.2 (hnames ▸ hn)]

theorem bind_of_kind_ne_object (hc : c.fields ≠ []) {v : Json} (hv : v.kind ≠ .object) :
    c.bind v = .error (.notObject v.kind) := by
  have he : ¬ c.fields.isEmpty = true := by simpa using hc
  unfold bind
  rw [if_neg he]
  cases v with
  | object members => exact absurd rfl hv
  | _ => rfl

theorem bind_object_eq_error_iff (hc : c.fields ≠ []) {e : BindError} :
    c.bind (.object members) = .error e ↔
      FirstFails (fun f => ∀ e, ¬ f.Fault members e) (fun f e => f.Fault members e) c.fields e := by
  have he : ¬ c.fields.isEmpty = true := by simpa using hc
  rw [bind, if_neg he, ← bindFields_eq_error_iff]
  exact map_eq_error_iff

theorem bind_object_eq_ok_iff_binds (hc : c.fields ≠ []) (h : (c.fields.map (·.name)).Nodup)
    {r : Record} :
    c.bind (.object members) = .ok r ↔
      (∀ f ∈ c.fields, ∀ e, ¬ f.Fault members e) ∧ c.Binds members r := by
  simp only [bind_object_eq_ok_iff hc, ← Field.exists_bind_iff_forall_not_fault]
  refine and_congr_right fun hall => ?_
  have hbinds := binds_boundValues h hall
  exact ⟨fun hr => hr ▸ hbinds, fun hr => hr.unique hbinds⟩

/-- Objects that supply the same give the same result. -/
theorem SuppliesAlike.bind_eq {members' : List (String × Json)}
    (h : c.SuppliesAlike members members') :
    c.bind (.object members) = c.bind (.object members') := by
  have hfields : bindFields members c.fields = bindFields members' c.fields :=
    bindFields_congr fun f hf => Field.bind_congr (h f hf)
  unfold bind
  simp only [hfields]

/-- The keys that name no field of the command do not matter, nor does the order of the others. -/
theorem suppliesAlike_of_mem_iff {members' : List (String × Json)}
    (hn : (members.map (·.1)).Nodup) (hn' : (members'.map (·.1)).Nodup)
    (h : ∀ n ∈ c.fields.map (·.name), ∀ j, j ≠ .null → ((n, j) ∈ members ↔ (n, j) ∈ members')) :
    c.SuppliesAlike members members' := by
  intro f hf j hj
  rw [Json.member?, Json.member?, lookup_eq_some_iff_mem hn, lookup_eq_some_iff_mem hn']
  exact h f.name (List.mem_map_of_mem hf) j hj

/-- A command without fields takes any script's value. One with fields takes objects alone, and its
fields are judged in their order: the first that has a fault decides the error, and without a fault
the record is the one that the object supplies. So objects that supply the same, null counting as
absent, give the same result, whatever other keys they have and in whatever order. -/
theorem bind_judges (c : Command) (h : (c.fields.map (·.name)).Nodup) :
    (c.fields = [] → ∀ v, c.bind v = .ok c.initialRecord) ∧
    (c.fields ≠ [] →
      (∀ v : Json, v.kind ≠ .object → c.bind v = .error (.notObject v.kind)) ∧
      ∀ members,
        (∀ e, c.bind (.object members) = .error e ↔
          FirstFails (fun f => ∀ e, ¬ f.Fault members e) (fun f e => f.Fault members e)
            c.fields e) ∧
        ∀ r, c.bind (.object members) = .ok r ↔
          (∀ f ∈ c.fields, ∀ e, ¬ f.Fault members e) ∧ c.Binds members r) ∧
    (∀ members members', c.SuppliesAlike members members' →
      c.bind (.object members) = c.bind (.object members')) ∧
    ∀ members members' : List (String × Json),
      (members.map (·.1)).Nodup → (members'.map (·.1)).Nodup →
      (∀ n ∈ c.fields.map (·.name), ∀ j, j ≠ .null →
        ((n, j) ∈ members ↔ (n, j) ∈ members')) →
      c.bind (.object members) = c.bind (.object members') := by
  refine ⟨bind_of_fields_eq_nil, fun hc => ⟨fun v => bind_of_kind_ne_object hc, fun members =>
    ⟨fun e => bind_object_eq_error_iff hc, fun r => bind_object_eq_ok_iff_binds hc h⟩⟩,
    fun _ _ hs => hs.bind_eq, fun _ _ hn hn' hm => (suppliesAlike_of_mem_iff hn hn' hm).bind_eq⟩

/-- A null among the elements is the fault that decides, before the order that is missing, and a key
that names no field changes nothing. -/
theorem bind_judges_purchase :
    let client : Field := ⟨"-c", "client", .string, false, false, none⟩
    let prices : Field := ⟨"-p", "prices", .int, false, true, none⟩
    let order : Field := ⟨"-s", "order", .sortType, false, false, none⟩
    let buy : Command := ⟨"buy", [client, prices, order]⟩
    let members := [("order", .null), ("prices", .array [.integer 5, .null]),
      ("client", .string "Ada")]
    let members' := [("client", .string "Ada"), ("note", .boolean true),
      ("prices", .array [.integer 5, .null])]
    (buy.fields.map (·.name)).Nodup ∧
      buy.bind (.object members) = .error (.typeMismatch "prices" .number .null) ∧
      buy.bind (.object members') = .error (.typeMismatch "prices" .number .null) := by
  intro client prices order buy members members'
  have hnames : (buy.fields.map (·.name)).Nodup := by decide
  obtain ⟨-, hjudged, -, halike⟩ := bind_judges buy hnames
  have hclient : ∀ e, ¬ client.Fault members e :=
    Field.exists_bind_iff_forall_not_fault.1 ⟨some (.string "Ada"), rfl⟩
  have hsupplied : Json.member? members prices.name = some (.array ([.integer 5] ++ [.null])) := rfl
  have hprices : prices.Fault members (.typeMismatch "prices" .number .null) :=
    .element hsupplied rfl (List.forall_mem_singleton.2 rfl) (by decide)
  have hbind : buy.bind (.object members) = .error (.typeMismatch "prices" .number .null) :=
    (((hjudged (by simp [buy])).2 members).1 _).2
      ⟨[client], prices, [order], rfl, by simpa using hclient, hprices⟩
  refine ⟨hnames, hbind, ?_⟩
  rw [← hbind]
  refine (halike members members' (by decide) (by decide) fun n hn j hj => ?_).symm
  have hnote : n ≠ "note" := by
    rintro rfl
    exact absurd hn (by decide)
  simp [members, members', hnote, hj, or_comm]

end Command

end CommandSchema
