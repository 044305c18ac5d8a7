import CommandSchema.Proofs.Json.ReadBack
import CommandSchema.Proofs.Schema.Written
import CommandSchema.Schema.ToJson

/-!
# Schemas read back from JSON

The JSON text of a schema says everything about it: commands and fields stand in their order, and
the name of a type tells the built-in types from the others.

* `Schema.ofDump?`: the schema of a JSON value.
* `Schema.KeepsBuiltinNames`: no foreign type has the name of a built-in one.
* `Schema.dump_lossless`: a schema is read back from its text, and no other schema has the same
  text.
-/

namespace CommandSchema

/-! ## The schema of a value -/

namespace Json

/-- The value under a key, if the value is an object that has it. -/
def get? (v : Json) (key : String) : Option Json :=
  match v with
  | .object members => member? members key
  | _ => none

/-- The text that the value is. -/
def string? : Json → Option String
  | .string s => some s
  | _ => none

/-- The truth value that the value is. -/
def boolean? : Json → Option Bool
  | .boolean b => some b
  | _ => none

/-- The items of the array that the value is. -/
def items? : Json → Option (List Json)
  | .array items => some items
  | _ => none

/-- The text that the value is, where null stands for no text. -/
def stringOrNull? : Json → Option (Option String)
  | .null => some none
  | .string s => some (some s)
  | _ => none

end Json

/-- The field of a value. -/
def Field.ofDump? (v : Json) : Option Field := do
  let flag ← (← v.get? "flag").string?
  let name ← (← v.get? "name").string?
  let type ← (← v.get? "type").string?
  let isOptional ← (← v.get? "is_optional").boolean?
  let isArray ← (← v.get? "is_array").boolean?
  let initial ← (← v.get? "default").stringOrNull?
  return { flag, name, type := .ofName type, isOptional, isArray, initial }

/-- The command of a value. -/
def Command.ofDump? (v : Json) : Option Command := do
  let name ← (← v.get? "name").string?
  let fields ← (← (← v.get? "fields").items?).mapM Field.ofDump?
  return { name, fields }

/-- The schema of a value. -/
def Schema.ofDump? (v : Json) : Option Schema := do
  let commands ← (← (← v.get? "commands").items?).mapM Command.ofDump?
  return { commands }

/-- No foreign type of a field has the name of a built-in one. -/
def Schema.KeepsBuiltinNames (s : Schema) : Prop :=
  ∀ c ∈ s.commands, ∀ f ∈ c.fields, ∀ n, f.type = .foreign n → n ∉ FieldType.builtinNames

/-! ## Parts -/

theorem mapM_map_eq_some {α β : Type} {f : α → Option β} {g : β → α} {bs : List β}
    (h : ∀ b ∈ bs, f (g b) = some b) : (bs.map g).mapM f = some bs := by
  induction bs with
  | nil => rfl
  | cons b bs ih =>
    rw [List.map_cons, List.mapM_cons, h b List.mem_cons_self,
      ih fun c hc => h c (List.mem_cons_of_mem _ hc)]
    rfl

theorem Field.ofDump?_toJson {f : Field}
    (h : ∀ n, f.type = .foreign n → n ∉ FieldType.builtinNames) : ofDump? f.toJson = some f := by
  have htype : FieldType.ofName f.type.name = f.type := FieldType.ofName_name f.type h
  have hinitial : (Json.ofOption f.initial).stringOrNull? = some f.initial := by
    cases f.initial <;> rfl
  have hread : ofDump? f.toJson = (Json.ofOption f.initial).stringOrNull?.bind fun initial =>
      some { f with type := .ofName f.type.name, initial } := rfl
  rw [hread, hinitial, Option.bind_some, htype]

theorem Command.ofDump?_toJson {c : Command}
    (h : ∀ f ∈ c.fields, ∀ n, f.type = .foreign n → n ∉ FieldType.builtinNames) :
    ofDump? c.toJson = some c := by
  have hread : ofDump? c.toJson =
      ((c.fields.map Field.toJson).mapM Field.ofDump?).bind fun fields =>
        some { c with fields } := rfl
  rw [hread, mapM_map_eq_some fun f hf => Field.ofDump?_toJson (h f hf), Option.bind_some]

theorem Field.isPlain_toJson (f : Field) (depth : ℕ) : f.toJson.IsPlain (depth + 1) := by
  have hkeys : ["flag", "name", "type", "is_optional", "is_array", "default"].Nodup := by decide
  have hinitial : (Json.ofOption f.initial).IsPlain depth := by
    cases f.initial with
    | none => exact .null
    | some e => exact .string e
  refine .object hkeys ?_
  simp only [List.forall_mem_cons, List.not_mem_nil, false_imp_iff, implies_true, and_true]
  exact ⟨.string _, .string _, .string _, .boolean _, .boolean _, hinitial⟩

theorem Command.isPlain_toJson (c : Command) (depth : ℕ) : c.toJson.IsPlain (depth + 3) := by
  have hkeys : ["name", "fields"].Nodup := by decide
  refine .object hkeys ?_
  simp only [List.forall_mem_cons, List.not_mem_nil, false_imp_iff, implies_true, and_true]
  exact ⟨.string _, .array (List.forall_mem_map.2 fun f _ => f.isPlain_toJson depth)⟩

namespace Schema

theorem ofDump?_toJson {s : Schema} (h : s.KeepsBuiltinNames) : ofDump? s.toJson = some s := by
  have hread : ofDump? s.toJson =
      ((s.commands.map Command.toJson).mapM Command.ofDump?).bind fun commands =>
        some { commands } := rfl
  rw [hread, mapM_map_eq_some fun c hc => Command.ofDump?_toJson (h c hc), Option.bind_some]

/-- Five arrays and objects lie in one another. -/
theorem isPlain_toJson (s : Schema) : s.toJson.IsPlain Json.maxDepth := by
  have hkeys : ["commands"].Nodup := by decide
  have hcommands : (Json.array (s.commands.map Command.toJson)).IsPlain (125 + 1) :=
    .array (List.forall_mem_map.2 fun c _ => c.isPlain_toJson 122)
  exact .object hkeys (List.forall_mem_singleton.2 hcommands)

/-- A type that is read from its name is foreign only if the name is. -/
theorem keepsBuiltinNames_of_isWritten {s : Schema} (h : s.IsWritten) : s.KeepsBuiltinNames := by
  intro c hc f hf n hn hbuiltin
  have htype := ((h.commands c hc).fields f hf).type
  have hall : ∀ n ∈ FieldType.builtinNames, FieldType.ofName n ≠ .foreign n := by decide
  rw [hn] at htype
  exact hall n hbuiltin htype

theorem read?_dump {s : Schema} (h : s.KeepsBuiltinNames) :
    (Json.read? s.dump).bind ofDump? = some s := by
  rw [dump, Json.read?_pretty s.isPlain_toJson, Option.bind_some, ofDump?_toJson h]

/-- The text of a schema is read back as its JSON value, and the value as the schema. So no other
schema has the same text, whatever flags and initializers are made of. Every schema that has been
read from a document is one of those that this is about. -/
theorem dump_lossless {s : Schema} (hs : s.KeepsBuiltinNames) :
    Json.read? s.dump = some s.toJson ∧
    (Json.read? s.dump).bind ofDump? = some s ∧
    (∀ s' : Schema, s'.KeepsBuiltinNames → s'.dump = s.dump → s' = s) ∧
    ∀ text s', parse text = .ok s' → s'.KeepsBuiltinNames := by
  refine ⟨Json.read?_pretty s.isPlain_toJson, read?_dump hs, fun s' hs' h => ?_, fun text s' h =>
    keepsBuiltinNames_of_isWritten (isWritten_of_parse h)⟩
  have hsame := read?_dump hs'
  rw [h, read?_dump hs] at hsame
  exact (Option.some.inj hsame).symm

/-- Quotes, backslashes, controls and a text that looks like JSON are all kept. -/
theorem dump_lossless_note :
    let note : Field := ⟨"-\"\\", "text", .foreign "Note", true, false, some "\"\u0001\\\n\", null"⟩
    let s : Schema := ⟨[⟨"note", [note]⟩, ⟨"none", []⟩]⟩
    s.KeepsBuiltinNames ∧ (Json.read? s.dump).bind ofDump? = some s := by
  intro note s
  have hs : s.KeepsBuiltinNames := by
    intro c hc f hf n hn
    simp only [s, List.mem_cons, List.not_mem_nil, or_false] at hc
    obtain rfl | rfl := hc
    · obtain rfl := List.mem_singleton.1 hf
      obtain rfl := FieldType.foreign.inj hn
      decide
    · cases hf
  exact ⟨hs, (dump_lossless hs).2.1⟩

end Schema

end CommandSchema
