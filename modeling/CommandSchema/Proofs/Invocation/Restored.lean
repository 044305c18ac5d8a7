import CommandSchema.Proofs.Invocation.Complete

/-!
# Records as options

The record of an invocation, shown as JSON, is a script's options for the same command: bound again,
they make the same record. Only members that have been left to their initializer have to be taken
out, since what an initializer denotes is not known.

* `Record.given`, `Record.options`: the record without those members, and the options that it
  stands for.
* `Field.bind_options`: what the options supply for a field.
* `Command.bind_given`: a complete record is bound again from its own JSON.
* `Schema.bind_restores`: and so is every invocation of a loaded schema.
-/

namespace CommandSchema

/-- The slot has been left to its initializer. -/
def Slot.isInitial : Slot → Bool
  | .initial _ => true
  | _ => false

/-- The record without the members that have been left to their initializer. -/
def Record.given (r : Record) : Record :=
  { r with members := r.members.filter fun m => !m.2.isInitial }

namespace Record

/-- Where names are distinct, a member that is not left out keeps its slot, and one that is left
out is gone. -/
theorem get?_given {r : Record} (h : r.names.Nodup) (name : String) :
    r.given.get? name = (r.get? name).filter fun slot => !slot.isInitial := by
  have hnodup : (r.given.members.map (·.1)).Nodup :=
    (List.filter_sublist.map _).nodup h
  refine Option.ext fun slot => ?_
  rw [get?, lookup_eq_some_iff_mem hnodup, Option.filter_eq_some_iff, get?,
    lookup_eq_some_iff_mem h, given, List.mem_filter]

/-- The members of the JSON that the record without those members is shown as. -/
def options (r : Record) : List (String × Json) := r.given.members.map fun m => (m.1, m.2.toJson)

/-- What the JSON of the record holds under a name. -/
theorem member?_options {r : Record} (h : r.names.Nodup) (name : String) :
    Json.member? r.options name =
      ((r.get? name).filter fun slot => !slot.isInitial).map Slot.toJson := by
  rw [← get?_given h]
  exact lookup_map (fun _ => Slot.toJson) ..

end Record

namespace Field

section Options

variable {f : Field} {r : Record} {slot : Slot}

/-- The options that a record stands for supply a field with the value of its member, if it has
one: an unset member is null, and one that has been left to its initializer is not there. -/
theorem member?_options (h : r.names.Nodup) (hslot : r.get? f.name = some slot) :
    f.member? r.options = slot.value?.map Value.toJson := by
  have hm := Record.member?_options h f.name
  rw [hslot] at hm
  cases slot with
  | set v => exact member?_eq_some_iff.2 ⟨hm, v.toJson_ne_null⟩
  | initial e =>
    unfold member?
    rw [hm]
    rfl
  | unset =>
    unfold member?
    rw [hm]
    rfl

/-- The value is restored from the type of the field. -/
theorem bind_options (h : r.names.Nodup) (hslot : r.get? f.name = some slot) {isSupplied : Prop}
    (hp : f.Permits isSupplied slot) : f.bind r.options = .ok slot.value? := by
  have hm := member?_options h hslot
  cases hp with
  | @set v hv => exact bind_eq_ok_iff.2 (.inl ⟨_, v, hm, ofJson_toJson hv, rfl⟩)
  | initial hi hn => exact bind_eq_ok_iff.2 (.inr ⟨hm, by simp [mayBeAbsent, hi], rfl⟩)
  | unset hopt ha hi hn => exact bind_eq_ok_iff.2 (.inr ⟨hm, by simp [mayBeAbsent, hopt], rfl⟩)

end Options

/-- What a member holds is the value it has been given, or else what it starts with. -/
theorem Permits.getD_value? {f : Field} {isSupplied : Prop} {slot : Slot}
    (h : f.Permits isSupplied slot) : (slot.value?.map Slot.set).getD f.initialSlot = slot := by
  cases h with
  | set hv => rfl
  | initial hi hn =>
    show f.initialSlot = _
    unfold initialSlot
    rw [hi]
  | unset hopt ha hi hn =>
    show f.initialSlot = _
    unfold initialSlot
    rw [hi, ha]
    rfl

end Field

namespace Command

/-- A complete record is the one that the values of its own members make. -/
theorem Completes.eq_setAll {c : Command} (hn : (c.fields.map (·.name)).Nodup)
    {Supplied : Field → Prop} {r : Record} (h : c.Completes Supplied r)
    {value? : Field → Option Value}
    (hv : ∀ f ∈ c.fields, ∀ slot, r.get? f.name = some slot → value? f = slot.value?) :
    r = c.initialRecord.setAll (namedValues value? c.fields) := by
  have hnames : r.names = (c.initialRecord.setAll (namedValues value? c.fields)).names := by
    rw [Record.names_setAll, names_initialRecord hn, h.names]
  refine Record.eq_of_get? ?_ hnames h.distinct fun n => ?_
  · rw [Record.name_setAll, name_initialRecord, h.name]
  · by_cases hmem : n ∈ r.names
    · rw [h.names] at hmem
      obtain ⟨f, hf, rfl⟩ := List.mem_map.1 hmem
      obtain ⟨slot, hslot, hp⟩ := h.slots f hf
      rw [get?_setAll_namedValues hn hf, hv f hf slot hslot, hp.getD_value?, hslot]
    · rw [Record.get?_eq_none_iff.2 hmem, Record.get?_eq_none_iff.2 (hnames ▸ hmem)]

/-- A complete record is bound again from its own JSON. -/
theorem bind_given {c : Command} (hn : (c.fields.map (·.name)).Nodup) {Supplied : Field → Prop}
    {r : Record} (h : c.Completes Supplied r) : c.bind r.given.toJson = .ok r := by
  have hbind : ∀ f ∈ c.fields, ∀ slot, r.get? f.name = some slot →
      f.bind r.options = .ok slot.value? := by
    intro f hf slot hslot
    obtain ⟨slot', hslot', hp⟩ := h.slots f hf
    obtain rfl : slot' = slot := Option.some.inj (hslot'.symm.trans hslot)
    exact Field.bind_options h.distinct hslot hp
  have heq := h.eq_setAll hn fun f hf slot hslot =>
    Field.bound?_of_bind (hbind f hf slot hslot)
  by_cases hc : c.fields = []
  · rw [bind_of_fields_eq_nil hc, heq, hc]
    rfl
  · refine (bind_object_eq_ok_iff hc).2 ⟨fun f hf => ?_, heq⟩
    obtain ⟨slot, hslot, -⟩ := h.slots f hf
    exact ⟨_, hbind f hf slot hslot⟩

end Command

/-- Every invocation that a loaded schema makes of an input is made again by calling the export of
its command with the record that it holds, shown as JSON without the members that have been left to
their initializer. -/
theorem Schema.bind_restores {text : String} {config : Config} {s : Schema}
    (hs : load text config = .ok s) {input : Input} {i : Invocation} (h : s.Yields i input) :
    ∃ c, s.command? i.command = some c ∧ s.bind c.exportName i.record.given.toJson = .ok i := by
  have hl := isLoaded_of_load hs
  obtain ⟨c, hc, -, hname, hcomplete⟩ := completes_of_yields hl h
  refine ⟨c, by rw [hname]; exact hl.command? hc, ?_⟩
  have hbind := Command.bind_given (hl.rules.commands c hc).names hcomplete
  exact bind_eq_ok_iff.2 ⟨c, hl.commandByExport? hc, hname, hbind⟩

/-- A payment whose mark is the NUL character. A member that is unset is shown as null, and an array
without elements as such. -/
theorem Schema.bind_restores_payment :
    let amount : Field := ⟨"-m", "amount", .foreign "Money", false, false, none⟩
    let mark : Field := ⟨"-c", "mark", .char, false, false, none⟩
    let counts : Field := ⟨"-n", "counts", .int, false, true, none⟩
    let day : Field := ⟨"-w", "day", .date, true, false, none⟩
    let orders : Field := ⟨"-s", "orders", .sortType, true, true, none⟩
    let wait : Field := ⟨"-d", "wait", .duration, false, false, some "Duration(5)"⟩
    let pay : Command := ⟨"pay_now", [amount, mark, counts, day, orders, wait]⟩
    let paid : Record := ⟨"PayNow", [("amount", .set (.foreign "12.50")),
      ("mark", .set (.char '\x00')), ("counts", .set (.array [.int (-2147483648), .int 0])),
      ("day", .unset), ("orders", .set (.array [])), ("wait", .initial "Duration(5)")]⟩
    let argv := ["pay_now", "-m", "12.50", "-n", "-2147483648|x", "-c", ""]
    load ("pay_now:\n  -m: Money amount\n  -c: char mark\n  -n: int counts[]\n  " ++
      "-w: Date day?\n  -s: SortType orders?[]\n  -d: Duration wait = Duration(5)\n")
        { foreignTypes := ["Money"] } = .ok ⟨[pay]⟩ ∧
      Yields ⟨[pay]⟩ ⟨"pay_now", paid⟩ (.vector argv) ∧
      bind ⟨[pay]⟩ "payNow" (.object [("amount", .string "12.50"), ("mark", .string "\x00"),
        ("counts", .array [.integer (-2147483648), .integer 0]), ("day", .null),
        ("orders", .array [])]) = .ok ⟨"pay_now", paid⟩ := by
  intro amount mark counts day orders wait pay paid argv
  have hs : load ("pay_now:\n  -m: Money amount\n  -c: char mark\n  -n: int counts[]\n  " ++
      "-w: Date day?\n  -s: SortType orders?[]\n  -d: Duration wait = Duration(5)\n")
      { foreignTypes := ["Money"] } = .ok ⟨[pay]⟩ := load_of_toOption (by decide +kernel)
  have hi : Yields ⟨[pay]⟩ ⟨"pay_now", paid⟩ (.vector argv) := by
    show parseArgv ⟨[pay]⟩ argv = .ok ⟨"pay_now", paid⟩
    decide +kernel
  obtain ⟨c, hc, hbind⟩ := bind_restores hs hi
  obtain rfl : pay = c := Option.some.inj hc
  have hexport : pay.exportName = "payNow" := by decide +kernel
  rw [hexport] at hbind
  exact ⟨hs, hi, hbind⟩

end CommandSchema
