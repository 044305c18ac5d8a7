import CommandSchema.Proofs.Invocation.Agreement

/-!
# Complete records

Whichever way an invocation is asked for, its record is complete: it has one member for every field
of its command, a field that has to be supplied is supplied and set, and a value is one of its
field.

* `Input`: a vector, a line or a call; `Schema.Yields`: the invocation of an input.
* `Input.Names`, `Input.Supplies`: the command that an input names and the fields that it supplies,
  told from the input alone.
* `Field.Permits`, `Command.Completes`: what a member may hold, and the record of a command.
* `Command.completes_setAll`: a record is complete if each field has the value that was supplied for
  it, or else what it starts with.
* `Schema.record_complete`: the record of every invocation is complete.
-/

namespace CommandSchema

/-! ## Inputs -/

/-- What an invocation is asked for with. -/
inductive Input where
  | vector (argv : List String)
  | line (text : String)
  /-- A script's call of an export. -/
  | call (exportName : String) (options : Json)

/-- The invocation is what the schema makes of the input. -/
def Schema.Yields (s : Schema) (i : Invocation) : Input → Prop
  | .vector argv => s.parseArgv argv = .ok i
  | .line text => s.parseLine text = .ok i
  | .call exportName options => s.bind exportName options = .ok i

/-- The arguments are pairs, one of which has the flag of the field. -/
def Field.InPairs (f : Field) (args : List String) : Prop :=
  ∃ pairs, args = pairArgs pairs ∧ f.flag ∈ pairs.map (·.1)

namespace Input

/-- The input names the command: by its own name, or by that of its export. -/
def Names (c : Command) : Input → Prop
  | vector argv => argv.head? = some c.name
  | line text => (Schema.lineArgv text).head? = some c.name
  | call exportName _ => exportName = c.exportName

/-- The input supplies the field: by its flag among the arguments that follow the first one, or by
a member of the options that is not null. -/
def Supplies (f : Field) : Input → Prop
  | vector argv => f.InPairs argv.tail
  | line text => f.InPairs (Schema.lineArgv text).tail
  | call _ options => ∃ members v, options = .object members ∧
      Json.member? members f.name = some v ∧ v ≠ .null

end Input

/-! ## Records -/

/-- What the member of a field may hold, given whether the field has been supplied: a value of the
field, or what only a field that was not supplied can have been left with. -/
inductive Field.Permits (f : Field) (isSupplied : Prop) : Slot → Prop
  | set {v : Value} (h : f.admits v = true) : f.Permits isSupplied (.set v)
  /-- An initializer is left alone in its own words. -/
  | initial {e : String} (h : f.initial = some e) (hn : ¬ isSupplied) :
    f.Permits isSupplied (.initial e)
  | unset (hopt : f.isOptional = true) (ha : f.isArray = false) (hi : f.initial = none)
    (hn : ¬ isSupplied) : f.Permits isSupplied .unset

/-- The record is one of the command, with all that has to be supplied. -/
structure Command.Completes (c : Command) (Supplied : Field → Prop) (r : Record) : Prop where
  name : r.name = c.recordName
  names : r.names = c.fields.map (·.name)
  distinct : r.names.Nodup
  required : ∀ f ∈ c.requiredFields, Supplied f ∧ ∃ v, r.get? f.name = some (.set v)
  slots : ∀ f ∈ c.fields, ∃ slot, r.get? f.name = some slot ∧ f.Permits (Supplied f) slot

namespace Field

theorem mayBeAbsent_of_not_required {f : Field} (h : f.isRequired ≠ true) :
    f.mayBeAbsent = true := by
  simpa [isRequired] using h

/-- A field that was not supplied keeps what it starts with, unless it has to be supplied. -/
theorem permits_initialSlot {f : Field} {isSupplied : Prop} (hmay : f.mayBeAbsent = true)
    (hn : ¬ isSupplied) : f.Permits isSupplied f.initialSlot := by
  unfold initialSlot
  cases hi : f.initial with
  | some e => exact .initial hi hn
  | none =>
    have hopt : f.isOptional = true := by simpa [mayBeAbsent, hi] using hmay
    cases ha : f.isArray with
    | true => exact .set (by simp [admits, ha])
    | false => exact .unset hopt ha hi hn

/-- The value that was supplied is permitted, and so is what the field starts with. -/
theorem permits_getD {f : Field} {isSupplied : Prop} {value? : Option Value}
    (hsome : value?.isSome = true ↔ isSupplied) (hv : ∀ v, value? = some v → f.admits v = true)
    (hrequired : f.isRequired = true → isSupplied) :
    f.Permits isSupplied ((value?.map Slot.set).getD f.initialSlot) := by
  cases value? with
  | some v => exact .set (hv v rfl)
  | none =>
    have hn : ¬ isSupplied := fun h => by simpa using hsome.2 h
    exact permits_initialSlot (mayBeAbsent_of_not_required (mt hrequired hn)) hn

end Field

namespace Command

/-- A record that starts as the command says and is changed by values is complete, if each field has
the value that was supplied for it, or else what it starts with. -/
theorem completes_setAll {c : Command} (hn : (c.fields.map (·.name)).Nodup)
    {Supplied : Field → Prop} {values : List (String × Value)} (value? : Field → Option Value)
    (hget : ∀ f ∈ c.fields, (c.initialRecord.setAll values).get? f.name =
      some (((value? f).map Slot.set).getD f.initialSlot))
    (hsome : ∀ f ∈ c.fields, (value? f).isSome = true ↔ Supplied f)
    (hvalue : ∀ f ∈ c.fields, ∀ v, value? f = some v → f.admits v = true)
    (hrequired : ∀ f ∈ c.requiredFields, Supplied f) :
    c.Completes Supplied (c.initialRecord.setAll values) where
  name := by rw [Record.name_setAll, name_initialRecord]
  names := by rw [Record.names_setAll, names_initialRecord hn]
  distinct := by rwa [Record.names_setAll, names_initialRecord hn]
  required := by
    intro f hf
    have hmem : f ∈ c.fields := List.mem_of_mem_filter hf
    have hs := hrequired f hf
    obtain ⟨v, hv⟩ := Option.isSome_iff_exists.1 ((hsome f hmem).2 hs)
    exact ⟨hs, v, by rw [hget f hmem, hv]; rfl⟩
  slots := by
    intro f hf
    refine ⟨_, hget f hf, Field.permits_getD (hsome f hf) (hvalue f hf) fun hreq => ?_⟩
    exact hrequired f (List.mem_filter.2 ⟨hf, hreq⟩)

theorem completes_of_fields_eq_nil {c : Command} (hc : c.fields = []) (Supplied : Field → Prop) :
    c.Completes Supplied c.initialRecord := by
  have hn : (c.fields.map (·.name)).Nodup := by simp [hc]
  show c.Completes Supplied (c.initialRecord.setAll [])
  refine completes_setAll hn (fun _ => none) ?_ ?_ ?_ ?_ <;> simp [hc, requiredFields]

end Command

/-! ## Arguments -/

theorem FieldType.admits_ofToken (t : FieldType) (token : String) :
    t.admits (t.ofToken token) = true := by
  cases t <;> rfl

/-- Whatever the token, the value of a field is one of the field. -/
theorem Field.admits_ofToken (f : Field) (token : String) : f.admits (f.ofToken token) = true := by
  cases ha : f.isArray with
  | true =>
    unfold admits
    rw [ofToken_of_isArray ha, ha]
    show ((tokenPieces token).map f.type.ofToken).all f.type.admits = true
    rw [List.all_map, List.all_eq_true]
    intro piece _
    exact f.type.admits_ofToken piece
  | false =>
    unfold admits
    rw [ofToken_of_not_isArray ha, ha]
    exact f.type.admits_ofToken token

theorem pairArgs_injective : Function.Injective pairArgs :=
  Function.LeftInverse.injective argPairs_pairArgs

theorem Field.inPairs_pairArgs {f : Field} {pairs : List (String × String)} :
    f.InPairs (pairArgs pairs) ↔ f.flag ∈ pairs.map (·.1) := by
  constructor
  · rintro ⟨pairs', he, hf⟩
    rwa [pairArgs_injective he]
  · intro hf
    exact ⟨pairs, rfl, hf⟩

namespace Command

section Arguments

variable {foreignTypes : List String} {c : Command} {pairs : List (String × String)} {f : Field}

/-- Where fields have flags and names of their own, a pair supplies a field exactly if it has the
flag of that field. -/
theorem supplies_iff_flag_mem (hw : c.IsWritten) (hr : c.KeepsRules foreignTypes)
    (hf : f ∈ c.fields) : c.Supplies pairs f.name ↔ f.flag ∈ pairs.map (·.1) := by
  constructor
  · rintro ⟨p, hp, g, hg, hn⟩
    obtain ⟨hmem, hflag⟩ : g ∈ c.fields ∧ g.flag = p.1 := mem_of_find?_key hg
    obtain rfl : g = f := List.inj_on_of_nodup_map hr.names hmem hf hn
    rw [hflag]
    exact List.mem_map_of_mem hp
  · intro h
    obtain ⟨p, hp, he⟩ := List.mem_map.1 h
    exact ⟨p, hp, f, by rw [he]; exact hw.fieldByFlag? hf, rfl⟩

/-- What pairs leave in the member of a field was made for that field. -/
theorem admits_of_lookup_pairValues (hr : c.KeepsRules foreignTypes) (hf : f ∈ c.fields) {v : Value}
    (h : (c.pairValues pairs).reverse.lookup f.name = some v) : f.admits v = true := by
  obtain ⟨before, after, hs, -⟩ := List.lookup_eq_some_iff.1 h
  have hmem : (f.name, v) ∈ c.pairValues pairs := by
    rw [← List.mem_reverse, hs]
    simp
  obtain ⟨⟨g, token⟩, hg, he⟩ := List.mem_map.1 hmem
  obtain ⟨p, -, hp⟩ := List.mem_filterMap.1 hg
  obtain ⟨g', hg', he'⟩ := Option.map_eq_some_iff.1 hp
  obtain ⟨rfl, rfl⟩ := Prod.mk.inj he'
  obtain ⟨hn, rfl⟩ := Prod.mk.inj he
  obtain rfl : g' = f :=
    List.inj_on_of_nodup_map hr.names (mem_of_find?_key hg').1 hf hn
  exact g'.admits_ofToken p.2

/-- The record that arguments supply is complete. -/
theorem completes_of_readRecord (hw : c.IsWritten) (hr : c.KeepsRules foreignTypes)
    {args : List String} {r : Record} (h : c.readRecord args = .ok r) :
    c.Completes (·.InPairs args) r := by
  by_cases hc : c.fields = []
  · rw [readRecord_of_fields_eq_nil hc] at h
    obtain rfl := Except.ok.inj h
    exact completes_of_fields_eq_nil hc _
  obtain ⟨pairs, rfl, -, hrequired, rfl⟩ := (readRecord_eq_ok_iff hc).1 h
  simp only [Field.inPairs_pairArgs]
  refine completes_setAll hr.names (fun f => (c.pairValues pairs).reverse.lookup f.name)
    ?_ ?_ ?_ ?_
  · intro f hf
    rw [Record.get?_setAll, get?_initialRecord hr.names hf, Option.map_some]
  · intro f hf
    rw [← supplies_iff_flag_mem hw hr hf, Option.isSome_iff_ne_none, Ne,
      lookup_pairValues_eq_none_iff, not_not]
  · intro f hf v hv
    exact admits_of_lookup_pairValues hr hf hv
  · intro f hf
    exact (supplies_iff_flag_mem hw hr (List.mem_of_mem_filter hf)).1 (hrequired f hf)

end Arguments

end Command

/-! ## Options -/

namespace FieldType

theorem admits_of_ofText? {t : FieldType} {text : String} {v : Value}
    (h : t.ofText? text = some v) : t.admits v = true := by
  cases t <;> simp only [ofText?, Option.some.injEq, reduceCtorEq] at h <;> subst h <;> rfl

theorem admits_of_ofNumber? {t : FieldType} {number : Json.Number} {v : Value}
    (h : t.ofNumber? number = some v) : t.admits v = true := by
  cases t <;> simp only [ofNumber?, Option.some.injEq, reduceCtorEq] at h <;> subst h <;> rfl

theorem admits_of_ofJson? {t : FieldType} {j : Json} {v : Value} (h : t.ofJson? j = some v) :
    t.admits v = true := by
  cases j with
  | string s => exact admits_of_ofText? h
  | number n => exact admits_of_ofNumber? h
  | boolean b =>
    by_cases ht : t = .bool
    · subst ht
      cases h
      rfl
    · simp [ofJson?, ht] at h
  | _ => cases h

end FieldType

namespace Field

/-- A value that is made of a script's value for a field is one of the field. -/
theorem admits_of_ofJson {f : Field} {j : Json} {v : Value} (h : f.ofJson j = .ok v) :
    f.admits v = true := by
  unfold admits
  cases ha : f.isArray with
  | true =>
    obtain ⟨elements, vs, rfl, rfl, hvs⟩ := forall₂_of_ofJson ha h
    show vs.all f.type.admits = true
    rw [List.all_eq_true]
    intro v hv
    obtain ⟨j, -, hj⟩ := exists_of_forall₂ hvs v hv
    exact FieldType.admits_of_ofJson? hj
  | false => exact FieldType.admits_of_ofJson? (ofJson?_of_ofJson ha h)

end Field

theorem Input.supplies_call_iff {f : Field} {exportName : String} {members : List (String × Json)} :
    (Input.call exportName (.object members)).Supplies f ↔ ∃ j, f.member? members = some j := by
  constructor
  · rintro ⟨members', j, he, hj⟩
    cases he
    exact ⟨j, Field.member?_eq_some_iff.2 hj⟩
  · rintro ⟨j, hj⟩
    exact ⟨members, j, rfl, Field.member?_eq_some_iff.1 hj⟩

namespace Command

theorem exists_object_of_bind {c : Command} (hc : c.fields ≠ []) {options : Json} {r : Record}
    (h : c.bind options = .ok r) : ∃ members, options = .object members := by
  have he : c.fields.isEmpty = false := by simpa using hc
  unfold bind at h
  rw [he, if_neg (by decide)] at h
  cases options with
  | object members => exact ⟨members, rfl⟩
  | _ => cases h

/-- The record that options supply is complete. -/
theorem completes_of_bind {foreignTypes : List String} {c : Command}
    (hr : c.KeepsRules foreignTypes) {options : Json} {r : Record} (h : c.bind options = .ok r)
    (exportName : String) :
    c.Completes (fun f => (Input.call exportName options).Supplies f) r := by
  by_cases hc : c.fields = []
  · rw [bind_of_fields_eq_nil hc] at h
    obtain rfl := Except.ok.inj h
    exact completes_of_fields_eq_nil hc _
  obtain ⟨members, rfl⟩ := exists_object_of_bind hc h
  obtain ⟨hall, rfl⟩ := (bind_object_eq_ok_iff hc).1 h
  -- The options supply a field exactly if it is bound to a value.
  have hbound : ∀ f ∈ c.fields, (f.bound? members).isSome = true ↔
      (Input.call exportName (.object members)).Supplies f := by
    intro f hf
    obtain ⟨o, ho⟩ := hall f hf
    rw [Field.bound?_of_bind ho]
    rw [Input.supplies_call_iff]
    obtain ⟨j, v, hj, -, rfl⟩ | ⟨hnone, -, rfl⟩ := Field.bind_eq_ok_iff.1 ho
    · exact iff_of_true rfl ⟨j, hj⟩
    · exact iff_of_false (by simp) (by simp [hnone])
  refine completes_setAll hr.names (·.bound? members) ?_ hbound ?_ ?_
  · intro f hf
    exact get?_setAll_namedValues hr.names hf
  · intro f hf v hv
    obtain ⟨o, ho⟩ := hall f hf
    rw [Field.bound?_of_bind ho] at hv
    obtain ⟨j, w, -, hj, rfl⟩ | ⟨-, -, rfl⟩ := Field.bind_eq_ok_iff.1 ho
    · cases hv
      exact Field.admits_of_ofJson hj
    · cases hv
  · intro f hf
    have hmem : f ∈ c.fields := List.mem_of_mem_filter hf
    obtain ⟨o, ho⟩ := hall f hmem
    obtain ⟨j, v, hj, -, -⟩ | ⟨-, hmay, -⟩ := Field.bind_eq_ok_iff.1 ho
    · exact Input.supplies_call_iff.2 ⟨j, hj⟩
    · have hreq : f.isRequired = true := (List.mem_filter.1 hf).2
      rw [Field.isRequired, hmay] at hreq
      cases hreq

end Command

/-! ## Schemas -/

namespace Schema

theorem bind_eq_ok_iff {s : Schema} {exportName : String} {options : Json} {i : Invocation} :
    s.bind exportName options = .ok i ↔
      ∃ c, s.commandByExport? exportName = some c ∧ i.command = c.name ∧
        c.bind options = .ok i.record := by
  unfold bind
  cases hc : s.commandByExport? exportName with
  | none => simp
  | some c =>
    obtain ⟨command, record⟩ := i
    cases hr : c.bind options with
    | error e => simp [hr]
    | ok r => simp [hr, eq_comm]

/-- An argument vector yields a complete record of the command that it names. -/
theorem completes_of_parseArgv {foreignTypes : List String} {s : Schema}
    (hs : s.IsLoaded foreignTypes) {argv : List String} {i : Invocation}
    (h : s.parseArgv argv = .ok i) :
    ∃ c ∈ s.commands, argv.head? = some c.name ∧ i.command = c.name ∧
      c.Completes (·.InPairs argv.tail) i.record := by
  obtain ⟨name, args, c, rfl, hc, hname, hread⟩ := parseArgv_eq_ok_iff.1 h
  obtain ⟨hmem, rfl⟩ : c ∈ s.commands ∧ c.name = name := mem_of_find?_key hc
  refine ⟨c, hmem, rfl, hname, ?_⟩
  exact Command.completes_of_readRecord (hs.written.commands c hmem) (hs.rules.commands c hmem)
    hread

/-- So do a line and a call. -/
theorem completes_of_yields {foreignTypes : List String} {s : Schema} (hs : s.IsLoaded foreignTypes)
    {input : Input} {i : Invocation} (h : s.Yields i input) :
    ∃ c ∈ s.commands, input.Names c ∧ i.command = c.name ∧
      c.Completes (fun f => input.Supplies f) i.record := by
  cases input with
  | vector argv => exact completes_of_parseArgv hs h
  | line text => exact completes_of_parseArgv hs h
  | call exportName options =>
    obtain ⟨c, hc, hname, hbind⟩ := bind_eq_ok_iff.1 h
    obtain ⟨hmem, rfl⟩ : c ∈ s.commands ∧ c.exportName = exportName := mem_of_find?_key hc
    exact ⟨c, hmem, rfl, hname, Command.completes_of_bind (hs.rules.commands c hmem) hbind _⟩

/-- Whatever a loaded schema accepts, the record is a complete one of the command that was named:
it has the members of the command and no other, everything that has to be supplied has been, and
every member holds a value of its field or has been left as the schema says. -/
theorem record_complete {text : String} {config : Config} {s : Schema}
    (hs : load text config = .ok s) {input : Input} {i : Invocation} (h : s.Yields i input) :
    ∃ c ∈ s.commands, input.Names c ∧ i.command = c.name ∧
      c.Completes (fun f => input.Supplies f) i.record :=
  completes_of_yields (isLoaded_of_load hs) h

/-- A line that supplies two of four fields. The array that has to be supplied is, with a token that
holds no element, and so looks as it did before. -/
theorem record_complete_purchase :
    let client : Field := ⟨"-c", "client", .string, false, false, none⟩
    let prices : Field := ⟨"-p", "prices", .int, false, true, none⟩
    let sort : Field := ⟨"-s", "sort", .sortType, true, false, none⟩
    let count : Field := ⟨"-n", "count", .int, false, false, some "1"⟩
    let buy : Command := ⟨"buy_now", [client, prices, sort, count]⟩
    let bought : Record := ⟨"BuyNow", [("client", .set (.string "Ada")),
      ("prices", .set (.array [])), ("sort", .unset), ("count", .initial "1")]⟩
    let input : Input := .line "buy_now -c Ada  -p |"
    load ("buy_now:\n  -c: string client\n  -p: int prices[]\n  -s: SortType sort?\n  " ++
      "-n: int count = 1\n") {} = .ok ⟨[buy]⟩ ∧
      Yields ⟨[buy]⟩ ⟨"buy_now", bought⟩ input ∧ input.Names buy ∧
      buy.Completes (fun f => input.Supplies f) bought := by
  intro client prices sort count buy bought input
  have hs : load ("buy_now:\n  -c: string client\n  -p: int prices[]\n  -s: SortType sort?\n  " ++
      "-n: int count = 1\n") {} = .ok ⟨[buy]⟩ := load_of_toOption (by decide +kernel)
  have hi : Yields ⟨[buy]⟩ ⟨"buy_now", bought⟩ input := by
    show parseLine ⟨[buy]⟩ "buy_now -c Ada  -p |" = .ok ⟨"buy_now", bought⟩
    decide +kernel
  obtain ⟨c, hc, hnames, -, hcomplete⟩ := record_complete hs hi
  obtain rfl := List.mem_singleton.1 hc
  exact ⟨hs, hi, hnames, hcomplete⟩

end Schema

end CommandSchema
