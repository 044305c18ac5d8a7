import CommandSchema.Proofs.Record
import CommandSchema.Proofs.Schema.Lookup

/-!
# Records in generated code

What generated code does to a record: it knows the structs that the header declares, and a member
takes what is assigned to it as it was declared. Nothing is known of the initializers but the
elements that an array starts with.

* `Host`: the structs and the elements.
* `Host.assign?`, `Host.assignAll?`, `Host.append?`: the changes of a member, where the struct of
  the record declares it so.
-/

namespace CommandSchema

/-- A value as a member of a type holds it: a text makes a foreign value. -/
def FieldType.hold : FieldType → Value → Value
  | .foreign _, .string text => .foreign text
  | _, v => v

namespace Generated

/-- What generated code relies on: the structs by their names, and the elements that the initializer
of an array stands for. -/
structure Host where
  struct? : String → Option Command
  elements : String → List Value

namespace Host

/-- The structs of a schema. -/
def ofSchema (s : Schema) (elements : String → List Value) : Host where
  struct? name := s.commands.find? (·.recordName == name)
  elements := elements

variable (h : Host)

/-- The field that a member of a record was declared for. -/
def field? (r : Record) (member : String) : Option Field :=
  (h.struct? r.name).bind (·.field? member)

/-- The elements that an array holds. -/
def contents : Slot → List Value
  | .unset => []
  | .initial expression => h.elements expression
  | .set v => v.asArray

/-- An array starts without elements if its initializer stands for none. -/
theorem contents_initialSlot {f : Field} (ha : f.isArray = true) :
    h.contents f.initialSlot = [] ↔ ∀ e, f.initial = some e → h.elements e = [] := by
  cases hi : f.initial with
  | none => simp [Field.initialSlot, hi, ha, contents, Value.asArray]
  | some e => simp [Field.initialSlot, hi, contents]

/-- Assigns a value to a member that is no array. -/
def assign? (r : Record) (member : String) (v : Value) : Option Record := do
  let f ← h.field? r member
  if f.isArray then none else r.set? member (f.type.hold v)

/-- Assigns elements to a member that is an array. -/
def assignAll? (r : Record) (member : String) (vs : List Value) : Option Record := do
  let f ← h.field? r member
  if f.isArray then r.set? member (.array (vs.map f.type.hold)) else none

/-- Appends an element to a member that is an array. -/
def append? (r : Record) (member : String) (v : Value) : Option Record := do
  let f ← h.field? r member
  let slot ← r.get? member
  if f.isArray then r.set? member (.array (h.contents slot ++ [f.type.hold v])) else none

end Host

/-- The record is one of a command, as the host knows it. -/
structure Host.Knows (h : Host) (c : Command) (r : Record) : Prop where
  struct : h.struct? r.name = some c
  fields : ∀ f ∈ c.fields, c.field? f.name = some f
  members : ∀ f ∈ c.fields, f.name ∈ r.names

namespace Host.Knows

variable {h : Host} {c : Command} {r : Record} {f : Field}

theorem set (hr : h.Knows c r) (name : String) (v : Value) : h.Knows c (r.set name v) where
  struct := by rw [Record.name_set, hr.struct]
  fields := hr.fields
  members := fun f hf => by rw [Record.names_set]; exact hr.members f hf

theorem setAll (hr : h.Knows c r) (values : List (String × Value)) :
    h.Knows c (r.setAll values) where
  struct := by rw [Record.name_setAll, hr.struct]
  fields := hr.fields
  members := fun f hf => by rw [Record.names_setAll]; exact hr.members f hf

theorem field? (hr : h.Knows c r) (hf : f ∈ c.fields) : h.field? r f.name = some f := by
  rw [Host.field?, hr.struct, Option.bind_some, hr.fields f hf]

theorem assign? (hr : h.Knows c r) (hf : f ∈ c.fields) (ha : f.isArray = false) (v : Value) :
    h.assign? r f.name v = some (r.set f.name (f.type.hold v)) := by
  simp [Host.assign?, hr.field? hf, ha, Record.set?_of_mem (hr.members f hf)]

theorem assignAll? (hr : h.Knows c r) (hf : f ∈ c.fields) (ha : f.isArray = true)
    (vs : List Value) :
    h.assignAll? r f.name vs = some (r.set f.name (.array (vs.map f.type.hold))) := by
  simp [Host.assignAll?, hr.field? hf, ha, Record.set?_of_mem (hr.members f hf)]

theorem append? (hr : h.Knows c r) (hf : f ∈ c.fields) (ha : f.isArray = true) {slot : Slot}
    (hslot : r.get? f.name = some slot) (v : Value) :
    h.append? r f.name v =
      some (r.set f.name (.array (h.contents slot ++ [f.type.hold v]))) := by
  simp [Host.append?, hr.field? hf, hslot, ha, Record.set?_of_mem (hr.members f hf)]

end Host.Knows

/-- The record that a command starts with is known to the host of its schema. -/
theorem Host.knows_initialRecord {foreignTypes : List String} {s : Schema}
    (hs : s.IsLoaded foreignTypes) {c : Command} (hc : c ∈ s.commands)
    (elements : String → List Value) : (Host.ofSchema s elements).Knows c c.initialRecord where
  struct := by
    rw [Command.name_initialRecord]
    exact hs.recordNamed hc
  fields := fun _ hf => (hs.rules.commands c hc).field? hf
  members := fun _ hf => Command.mem_names_initialRecord.2 (List.mem_map_of_mem hf)

end Generated

end CommandSchema
