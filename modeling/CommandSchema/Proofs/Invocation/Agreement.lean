import CommandSchema.Proofs.Invocation.Options
import CommandSchema.Proofs.Invocation.Tokens
import CommandSchema.Proofs.Schema.Lookup
import CommandSchema.Proofs.Text.LeadingInteger

/-!
# The command line and scripts agree

The same values, given as tokens on a command line or as the members of a script's object, make
the same record.

* `FieldType.admits`, `Field.admits`: the values of a type and of a field.
* `Value.token`: a value as a token; its counterpart for scripts is `Value.toJson`.
* `Field.ofToken_token`, `Field.ofJson_toJson`: both are read back.
* `Command.filled`: the record that values of some of the fields make.
* `Schema.parseArgv_eq_bind`: both ways lead to it.
-/

namespace CommandSchema

/-! ## Values of a type -/

/-- The value is one of the type. -/
def FieldType.admits : FieldType → Value → Bool
  | .string, .string _ | .int, .int _ | .bool, .bool _ | .char, .char _ | .date, .date _
  | .instant, .instant _ | .duration, .duration _ | .sortType, .sort _
  | .foreign _, .foreign _ => true
  | _, _ => false

/-- The value is one of the field: an array of values of its type if the field is an array. -/
def Field.admits (f : Field) (v : Value) : Bool :=
  if f.isArray then match v with
    | .array items => items.all f.type.admits
    | _ => false
  else f.type.admits v

/-! ## Tokens -/

namespace Value

/-- A value that is no array as a token. -/
def itemToken : Value → String
  | .string s | .date s | .instant s | .foreign s => s
  | .int n | .duration n => numberText n
  | .bool b => if b then "true" else "false"
  | .char c => .singleton c
  | .sort o => o.name
  | .array _ => ""

/-- A value as a token, the elements of an array joined by the separator. -/
def token : Value → String
  | .array items => .intercalate (.singleton arraySeparator) (items.map itemToken)
  | other => other.itemToken

/-- The elements of an array can be told apart in its token: none is empty or holds the
separator. -/
def HasPlainItems (v : Value) : Prop :=
  ∀ item ∈ v.asArray, item.itemToken ≠ "" ∧ arraySeparator ∉ item.itemToken.toList

end Value

namespace FieldType

theorem leadingInt32_numberText (n : Int32) : Text.leadingInt32 (Value.numberText n) = n := by
  rw [Value.numberText, Text.leadingInt32_integerText, Int32.ofInt_toInt]

@[simp] theorem admits_array (t : FieldType) (vs : List Value) : t.admits (.array vs) = false := by
  cases t <;> rfl

/-- A number of 32 bits survives the way through JSON. -/
theorem toInt32_toInt (n : Int32) : (Json.Number.integer n.toInt).toInt32 = n := by
  have hlt : n.toInt < 2 ^ 31 := n.toInt_lt
  have hlimit : n.toInt < (Json.Number.signedLimit : Int) :=
    Int.lt_trans hlt (by decide)
  rw [Json.Number.toInt32_integer hlimit, Int32.ofInt_toInt]

/-- A value is read back from its token. -/
theorem ofToken_itemToken {t : FieldType} {v : Value} (h : t.admits v = true) :
    t.ofToken v.itemToken = v := by
  revert h
  fun_cases admits t v <;> intro h
  case case2 n => exact congrArg Value.int (leadingInt32_numberText n)
  case case3 b => cases b <;> rfl
  case case4 c => simp [ofToken, Value.itemToken, firstChar]
  case case7 n => exact congrArg Value.duration (leadingInt32_numberText n)
  case case8 o => cases o <;> rfl
  case case10 => cases h
  all_goals rfl

/-- A value is read back from its JSON. -/
theorem ofJson?_toJson {t : FieldType} {v : Value} (h : t.admits v = true) :
    t.ofJson? v.toJson = some v := by
  revert h
  fun_cases admits t v <;> intro h
  case case2 n => exact congrArg (fun n => some (Value.int n)) (toInt32_toInt n)
  case case3 b => cases b <;> rfl
  case case4 c => simp [ofJson?, ofText?, Value.toJson, firstChar]
  case case7 n => exact congrArg (fun n => some (Value.duration n)) (toInt32_toInt n)
  case case8 o => cases o <;> rfl
  case case10 => cases h
  all_goals rfl

end FieldType

/-- A value is shown, so it does not count as absent. -/
theorem Value.toJson_ne_null (v : Value) : v.toJson ≠ .null := by
  cases v <;> simp [Value.toJson, Json.integer]

namespace Field

theorem toJsonItems_eq_map (vs : List Value) : Value.toJsonItems vs = vs.map Value.toJson := by
  induction vs with
  | nil => rfl
  | cons v vs ih => rw [Value.toJsonItems, ih, List.map_cons]

/-- Elements that can be told apart are cut out of their token again. -/
theorem tokenPieces_token {vs : List Value} (h : (Value.array vs).HasPlainItems) :
    tokenPieces (Value.array vs).token = vs.map Value.itemToken := by
  have hspread : Text.Spread arraySeparator ((vs.map Value.itemToken).map String.toList)
      (Value.array vs).token.toList := by
    refine spread_intercalate fun piece hpiece => ?_
    obtain ⟨v, hv, rfl⟩ := List.mem_map.1 hpiece
    exact h v hv
  exact (eq_tokenPieces_iff.2 hspread).symm

/-- A field that is an array admits arrays alone. -/
theorem exists_items_of_admits {f : Field} {v : Value} (hf : f.isArray = true)
    (h : f.admits v = true) : ∃ vs, v = .array vs ∧ ∀ item ∈ vs, f.type.admits item = true := by
  unfold Field.admits at h
  rw [if_pos hf] at h
  cases v with
  | array vs => exact ⟨vs, rfl, List.all_eq_true.1 h⟩
  | _ => cases h

theorem type_admits {f : Field} {v : Value} (hf : f.isArray = false) (h : f.admits v = true) :
    f.type.admits v = true := by
  unfold Field.admits at h
  rwa [hf, if_neg (by decide)] at h

theorem ofToken_token {f : Field} {v : Value} (h : f.admits v = true) (hv : v.HasPlainItems) :
    f.ofToken v.token = v := by
  cases hf : f.isArray with
  | true =>
    obtain ⟨vs, rfl, hall⟩ := exists_items_of_admits hf h
    have hitems : (vs.map Value.itemToken).map f.type.ofToken = vs := by
      have hid : ∀ v ∈ vs, (f.type.ofToken ∘ Value.itemToken) v = id v :=
        fun v hv => FieldType.ofToken_itemToken (hall v hv)
      rw [List.map_map, List.map_congr_left hid, List.map_id]
    rw [ofToken_of_isArray hf, tokenPieces_token hv, hitems]
  | false =>
    have ht := type_admits hf h
    have htoken : v.token = v.itemToken := by
      cases v with
      | array vs => rw [FieldType.admits_array] at ht; cases ht
      | _ => rfl
    rw [ofToken_of_not_isArray hf, htoken, FieldType.ofToken_itemToken ht]

theorem ofJson_toJson {f : Field} {v : Value} (h : f.admits v = true) :
    f.ofJson v.toJson = .ok v := by
  have hitem : ∀ v, f.type.admits v = true → f.type.ofJson f.name v.toJson = .ok v := by
    intro v hv
    rw [FieldType.ofJson, FieldType.ofJson?_toJson hv]
  cases hf : f.isArray with
  | true =>
    obtain ⟨vs, rfl, hall⟩ := exists_items_of_admits hf h
    have hm : (Value.toJsonItems vs).mapM (f.type.ofJson f.name) = .ok vs := by
      rw [toJsonItems_eq_map]
      clear h
      induction vs with
      | nil => rfl
      | cons v vs ih =>
        rw [List.map_cons, List.mapM_cons, hitem v (hall v List.mem_cons_self),
          ih fun w hw => hall w (List.mem_cons_of_mem _ hw)]
        rfl
    unfold ofJson
    rw [if_pos hf]
    show Except.map Value.array ((Value.toJsonItems vs).mapM _) = _
    rw [hm]
    rfl
  | false =>
    unfold ofJson
    rw [hf, if_neg (by decide)]
    exact hitem v (type_admits hf h)

end Field

/-! ## Values of some of the fields -/

/-- The values under the names of their fields. -/
def assignedValues (assigned : List (Field × Value)) : List (String × Value) :=
  assigned.map fun a => (a.1.name, a.2)

namespace Command

/-- Values of some of the fields of a command, among them all that a caller has to supply. -/
structure IsAssignment (c : Command) (assigned : List (Field × Value)) : Prop where
  fields : ∀ a ∈ assigned, a.1 ∈ c.fields
  distinct : (assigned.map (·.1)).Nodup
  values : ∀ a ∈ assigned, a.1.admits a.2 = true
  items : ∀ a ∈ assigned, a.2.HasPlainItems
  required : ∀ f ∈ c.requiredFields, f ∈ assigned.map (·.1)

/-- The arguments that supply values on a command line. -/
def tokenArgs (assigned : List (Field × Value)) : List String :=
  assigned.flatMap fun a => [a.1.flag, a.2.token]

/-- The object that supplies values in a script. -/
def optionMembers (assigned : List (Field × Value)) : List (String × Json) :=
  assigned.map fun a => (a.1.name, a.2.toJson)

/-- The record that a command starts with, the assigned members set to their values. -/
def filled (c : Command) (assigned : List (Field × Value)) : Record where
  name := c.initialRecord.name
  members := c.initialRecord.members.map fun m =>
    (m.1, (((assignedValues assigned).lookup m.1).map Slot.set).getD m.2)

theorem IsAssignment.perm {c : Command} {assigned entries : List (Field × Value)}
    (h : c.IsAssignment assigned) (hp : entries.Perm assigned) : c.IsAssignment entries where
  fields := fun a ha => h.fields a (hp.mem_iff.1 ha)
  distinct := (hp.map _).nodup_iff.2 h.distinct
  values := fun a ha => h.values a (hp.mem_iff.1 ha)
  items := fun a ha => h.items a (hp.mem_iff.1 ha)
  required := fun f hf => (hp.map _).mem_iff.2 (h.required f hf)

section Loaded

variable {foreignTypes : List String} {c : Command} {assigned : List (Field × Value)}

/-- Fields of one command with one name are one field. -/
theorem IsAssignment.nodup_names (h : c.IsAssignment assigned) (hr : c.KeepsRules foreignTypes) :
    ((assignedValues assigned).map (·.1)).Nodup := by
  rw [assignedValues, List.map_map]
  show (assigned.map (Field.name ∘ (·.1))).Nodup
  rw [← List.map_map]
  refine List.Nodup.map_on (fun f hf g hg he => ?_) h.distinct
  obtain ⟨a, ha, rfl⟩ := List.mem_map.1 hf
  obtain ⟨b, hb, rfl⟩ := List.mem_map.1 hg
  exact List.inj_on_of_nodup_map hr.names (h.fields a ha) (h.fields b hb) he

theorem get?_filled (c : Command) (assigned : List (Field × Value)) (n : String) :
    (c.filled assigned).get? n =
      (c.initialRecord.get? n).map fun s =>
        (((assignedValues assigned).lookup n).map Slot.set).getD s :=
  lookup_map (fun k slot => (((assignedValues assigned).lookup k).map Slot.set).getD slot) ..

/-- Values that are the assigned ones, each once, fill the record. -/
theorem setAll_eq_filled {values : List (String × Value)} (hn : (values.map (·.1)).Nodup)
    (hn' : ((assignedValues assigned).map (·.1)).Nodup)
    (hmem : ∀ p, p ∈ values ↔ p ∈ assignedValues assigned) :
    c.initialRecord.setAll values = c.filled assigned := by
  refine Record.eq_of_get? (Record.name_setAll ..) ?_ ?_ fun n => ?_
  · rw [Record.names_setAll, Record.names, Record.names, filled, List.map_map]
    rfl
  · rw [Record.names_setAll]
    exact nodup_names_initialRecord c
  · rw [Record.get?_setAll_of_nodup _ hn, get?_filled, lookup_congr hn hn' hmem]

theorem IsAssignment.filled_of_fields_eq_nil (h : c.IsAssignment assigned) (hc : c.fields = []) :
    c.filled assigned = c.initialRecord := by
  have hnil : assigned = [] := List.eq_nil_iff_forall_not_mem.2 fun a ha => by
    have hf := h.fields a ha
    rw [hc] at hf
    cases hf
  subst hnil
  have hn : (([] : List (String × Value)).map (·.1)).Nodup := List.nodup_nil
  have hn' : ((assignedValues []).map (·.1)).Nodup := hn
  exact (setAll_eq_filled hn hn' fun _ => Iff.rfl).symm

/-! ## The two ways -/

/-- Tokens supply what they were made from. -/
theorem readRecord_tokenArgs (hw : c.IsWritten) (hr : c.KeepsRules foreignTypes)
    (h : c.IsAssignment assigned) :
    c.readRecord (tokenArgs assigned) = .ok (c.filled assigned) := by
  by_cases hc : c.fields = []
  · rw [readRecord_of_fields_eq_nil hc, h.filled_of_fields_eq_nil hc]
  let pairs := assigned.map fun a => (a.1.flag, a.2.token)
  have hargs : tokenArgs assigned = pairArgs pairs := by
    rw [tokenArgs, pairArgs, List.flatMap_map]
  have hselect : ∀ a ∈ assigned, c.select? (a.1.flag, a.2.token) = some (a.1, a.2.token) := by
    intro a ha
    rw [select?, hw.fieldByFlag? (h.fields a ha)]
    rfl
  have hvalues : c.pairValues pairs = assignedValues assigned := by
    have hsel : pairs.filterMap c.select? = assigned.map fun a => (a.1, a.2.token) := by
      rw [List.filterMap_map, ← List.filterMap_eq_map]
      exact List.filterMap_congr hselect
    rw [pairValues, hsel, List.map_map, assignedValues]
    refine List.map_congr_left fun a ha => ?_
    exact congrArg (Prod.mk a.1.name) (Field.ofToken_token (h.values a ha) (h.items a ha))
  have hn := h.nodup_names hr
  refine (readRecord_eq_ok_iff hc).2 ⟨pairs, hargs, ?_, ?_, ?_⟩
  · intro p hp
    obtain ⟨a, ha, rfl⟩ := List.mem_map.1 hp
    exact List.mem_map_of_mem (h.fields a ha)
  · intro f hf
    obtain ⟨a, ha, rfl⟩ := List.mem_map.1 (h.required f hf)
    rw [supplies_iff, hvalues]
    exact List.mem_map_of_mem (List.mem_map_of_mem ha)
  · rw [hvalues]
    exact (setAll_eq_filled hn hn fun _ => Iff.rfl).symm

theorem nodup_optionMembers (hr : c.KeepsRules foreignTypes) (h : c.IsAssignment assigned) :
    ((optionMembers assigned).map (·.1)).Nodup := by
  have hn := h.nodup_names hr
  rw [assignedValues, List.map_map] at hn
  rwa [optionMembers, List.map_map]

/-- The member of an assigned field is its value in JSON. -/
theorem member?_optionMembers (hr : c.KeepsRules foreignTypes) (h : c.IsAssignment assigned)
    {a : Field × Value} (ha : a ∈ assigned) :
    a.1.member? (optionMembers assigned) = some a.2.toJson := by
  have hl : Json.member? (optionMembers assigned) a.1.name = some a.2.toJson :=
    (lookup_eq_some_iff_mem (nodup_optionMembers hr h)).2 (List.mem_map_of_mem ha)
  exact Field.member?_eq_some_iff.2 ⟨hl, Value.toJson_ne_null a.2⟩

theorem bind_of_mem (hr : c.KeepsRules foreignTypes) (h : c.IsAssignment assigned)
    {a : Field × Value} (ha : a ∈ assigned) :
    a.1.bind (optionMembers assigned) = .ok (some a.2) :=
  Field.bind_eq_ok_iff.2 <| .inl
    ⟨_, _, member?_optionMembers hr h ha, Field.ofJson_toJson (h.values a ha), rfl⟩

/-- A field that is not assigned may be absent. -/
theorem bind_of_not_mem (hr : c.KeepsRules foreignTypes) (h : c.IsAssignment assigned) {f : Field}
    (hf : f ∈ c.fields) (hn : f ∉ assigned.map (·.1)) :
    f.bind (optionMembers assigned) = .ok none := by
  have hnone : Json.member? (optionMembers assigned) f.name = none := by
    refine List.lookup_eq_none_iff.2 fun p hp => ?_
    obtain ⟨a, ha, rfl⟩ := List.mem_map.1 hp
    have hne : f.name ≠ a.1.name := by
      intro he
      have hfa : f = a.1 := List.inj_on_of_nodup_map hr.names hf (h.fields a ha) he
      exact hn (hfa ▸ List.mem_map_of_mem ha)
    simpa using hne
  have hmay : f.mayBeAbsent = true := by
    by_contra hreq
    exact hn (h.required f (List.mem_filter.2 ⟨hf, by simpa [Field.isRequired] using hreq⟩))
  exact Field.bind_eq_ok_iff.2 <| .inr ⟨by rw [Field.member?, hnone], hmay, rfl⟩

/-- Options supply what they were made from. -/
theorem bind_optionMembers (hr : c.KeepsRules foreignTypes) (h : c.IsAssignment assigned) :
    c.bind (.object (optionMembers assigned)) = .ok (c.filled assigned) := by
  by_cases hc : c.fields = []
  · rw [bind_of_fields_eq_nil hc, h.filled_of_fields_eq_nil hc]
  refine (bind_object_eq_ok_iff hc).2 ⟨fun f hf => ?_, ?_⟩
  · by_cases hm : f ∈ assigned.map (·.1)
    · obtain ⟨a, ha, rfl⟩ := List.mem_map.1 hm
      exact ⟨_, bind_of_mem hr h ha⟩
    · exact ⟨_, bind_of_not_mem hr h hf hm⟩
  · refine (setAll_eq_filled (nodup_namedValues hr.names) (h.nodup_names hr) fun p => ?_).symm
    rw [mem_namedValues, assignedValues, List.mem_map]
    constructor
    · rintro ⟨f, hf, hn, hv⟩
      by_cases hm : f ∈ assigned.map (·.1)
      · obtain ⟨a, ha, rfl⟩ := List.mem_map.1 hm
        rw [Field.bound?_of_bind (bind_of_mem hr h ha)] at hv
        exact ⟨a, ha, Prod.ext hn (Option.some.inj hv)⟩
      · rw [Field.bound?_of_bind (bind_of_not_mem hr h hf hm)] at hv
        cases hv
    · rintro ⟨a, ha, rfl⟩
      exact ⟨a.1, h.fields a ha, rfl, Field.bound?_of_bind (bind_of_mem hr h ha)⟩

theorem filled_perm {entries : List (Field × Value)} (hr : c.KeepsRules foreignTypes)
    (h : c.IsAssignment assigned) (hp : entries.Perm assigned) :
    c.filled entries = c.filled assigned := by
  have hn := (h.perm hp).nodup_names hr
  rw [← setAll_eq_filled hn hn fun _ => Iff.rfl]
  exact setAll_eq_filled hn (h.nodup_names hr) fun p => (hp.map _).mem_iff

end Loaded

end Command

/-- Values of some of the fields of a command, among them all that have to be supplied, make one
and the same invocation as tokens on a command line and as the members of a script's object, both in
any order: that of the record that the command starts with and the values in their members. -/
theorem Schema.parseArgv_eq_bind {text : String} {config : Config} {s : Schema}
    (hs : load text config = .ok s) {c : Command} (hc : c ∈ s.commands)
    {assigned entries : List (Field × Value)} (h : c.IsAssignment assigned)
    (hp : entries.Perm assigned) :
    s.parseArgv (c.name :: Command.tokenArgs assigned) = .ok ⟨c.name, c.filled assigned⟩ ∧
      s.bind c.exportName (.object (Command.optionMembers entries)) =
        .ok ⟨c.name, c.filled assigned⟩ := by
  have hl := isLoaded_of_load hs
  have hr := hl.rules.commands c hc
  constructor
  · rw [parseArgv, hl.command? hc]
    simp only [Command.readRecord_tokenArgs (hl.written.commands c hc) hr h]
    rfl
  · rw [bind, hl.commandByExport? hc]
    simp only [Command.bind_optionMembers hr (h.perm hp), Command.filled_perm hr h hp]

/-- Two of three fields of a purchase, one of them an array, with the options the other way
round. -/
theorem Schema.parseArgv_eq_bind_purchase :
    let prices : Field := ⟨"-p", "prices", .int, false, true, none⟩
    let client : Field := ⟨"-c", "client", .string, false, false, none⟩
    let sort : Field := ⟨"-s", "sort", .sortType, true, false, none⟩
    let buy : Command := ⟨"buy_now", [client, prices, sort]⟩
    let bought : Record := ⟨"BuyNow", [("client", .set (.string "Ada")),
      ("prices", .set (.array [.int (-7), .int 12])), ("sort", .unset)]⟩
    load "buy_now:\n  -c: string client\n  -p: int prices[]\n  -s: SortType sort?\n" {} =
        .ok ⟨[buy]⟩ ∧
      parseArgv ⟨[buy]⟩ ["buy_now", "-p", "-7|12", "-c", "Ada"] = .ok ⟨"buy_now", bought⟩ ∧
      bind ⟨[buy]⟩ "buyNow" (.object [("client", .string "Ada"),
        ("prices", .array [.integer (-7), .integer 12])]) = .ok ⟨"buy_now", bought⟩ := by
  intro prices client sort buy bought
  have hs : load "buy_now:\n  -c: string client\n  -p: int prices[]\n  -s: SortType sort?\n" {} =
      .ok ⟨[buy]⟩ := load_of_toOption (by decide +kernel)
  let assigned : List (Field × Value) :=
    [(prices, .array [.int (-7), .int 12]), (client, .string "Ada")]
  have h : buy.IsAssignment assigned := by
    refine ⟨?_, by decide, by decide, ?_, by decide⟩
    · simp [assigned, buy]
    · simp only [assigned, List.forall_mem_cons, Value.HasPlainItems, Value.asArray]
      refine ⟨⟨?_, ?_, by simp⟩, by simp, by simp⟩ <;> decide +kernel
  have hargs : Command.tokenArgs assigned = ["-p", "-7|12", "-c", "Ada"] := by decide +kernel
  have hfilled : buy.filled assigned = bought := by decide +kernel
  have hc : buy ∈ (⟨[buy]⟩ : Schema).commands := List.mem_cons_self
  have hp : [(client, Value.string "Ada"), (prices, .array [.int (-7), .int 12])].Perm assigned :=
    .swap ..
  have hboth := parseArgv_eq_bind hs hc h hp
  have hexport : buy.exportName = "buyNow" := by decide +kernel
  rw [hargs, hfilled, hexport] at hboth
  exact ⟨hs, hboth⟩

end CommandSchema
