import CommandSchema.Generated.Artifacts

/-!
# What generated code does not tell

An array with an initializer may be left out whether or not it is optional, and its declared type is
the same. So nothing that is generated tells whether it is.

* `Field.normal`, `Command.normal`, `Schema.normal`: the same without such marks.
* `Artifacts.ofSchema_normal`: the same files are generated.
-/

namespace CommandSchema

/-! ## Fields -/

namespace Field

/-- The field, but not optional if it is an array with an initializer. -/
def normal (f : Field) : Field :=
  { f with isOptional := f.isOptional && !(f.isArray && f.initial.isSome) }

variable (f : Field)

@[simp] theorem flag_normal : f.normal.flag = f.flag := rfl

@[simp] theorem name_normal : f.normal.name = f.name := rfl

@[simp] theorem initial_normal : f.normal.initial = f.initial := rfl

@[simp] theorem mayBeAbsent_normal : f.normal.mayBeAbsent = f.mayBeAbsent := by
  unfold mayBeAbsent normal
  cases f.isOptional <;> cases f.isArray <;> cases f.initial <;> rfl

@[simp] theorem isRequired_normal : f.normal.isRequired = f.isRequired := by
  rw [isRequired, mayBeAbsent_normal, isRequired]

@[simp] theorem cppType_normal : f.normal.cppType = f.cppType := by
  unfold cppType normal
  cases f.isArray <;> simp

@[simp] theorem tsType_normal : f.normal.tsType = f.tsType := rfl

@[simp] theorem declaration_normal : f.normal.declaration = f.declaration := by
  rw [declaration, declaration, initial_normal, cppType_normal, name_normal]

end Field

namespace Generated

variable (f : Field)

@[simp] theorem seenLocal_normal : seenLocal f.normal = seenLocal f := rfl

@[simp] theorem optionMember_normal : optionMember f.normal = optionMember f := by
  rw [optionMember, optionMember, f.name_normal, f.mayBeAbsent_normal, f.tsType_normal]

@[simp] theorem ArgvCode.supply_normal : supply f.normal = supply f := by
  unfold supply
  rw [f.isRequired_normal, seenLocal_normal]
  rfl

@[simp] theorem OptionsCode.supply_normal : supply f.normal = supply f := by
  funext next
  unfold supply
  rw [f.mayBeAbsent_normal]
  rfl

end Generated

/-! ## Commands -/

namespace Command

/-- The command with all its fields like that. -/
def normal (c : Command) : Command := { c with fields := c.fields.map (·.normal) }

variable (c : Command)

@[simp] theorem name_normal : c.normal.name = c.name := rfl

@[simp] theorem recordName_normal : c.normal.recordName = c.recordName := rfl

@[simp] theorem exportName_normal : c.normal.exportName = c.exportName := rfl

@[simp] theorem optionsName_normal : c.normal.optionsName = c.optionsName := rfl

@[simp] theorem bridgeName_normal : c.normal.bridgeName = c.bridgeName := rfl

@[simp] theorem isEmpty_fields_normal : c.normal.fields.isEmpty = c.fields.isEmpty := by
  simp [normal]

/-- What is the same for a field and its normal form is the same for all fields. -/
theorem map_fields_normal {α : Type} {g : Field → α} (h : ∀ f : Field, g f.normal = g f) :
    c.normal.fields.map g = c.fields.map g := by
  rw [normal, List.map_map]
  exact List.map_congr_left fun f _ => h f

theorem map_requiredFields_normal {α : Type} {g : Field → α} (h : ∀ f : Field, g f.normal = g f) :
    c.normal.requiredFields.map g = c.requiredFields.map g := by
  have hrequired : (fun f : Field => f.isRequired) ∘ Field.normal = fun f => f.isRequired :=
    funext fun f => f.isRequired_normal
  rw [requiredFields, normal, List.filter_map, hrequired, List.map_map]
  exact List.map_congr_left fun f _ => h f

end Command

namespace Generated

variable (c : Command)

@[simp] theorem record_normal : record c.normal = record c := by
  rw [record, record, c.isEmpty_fields_normal, c.recordName_normal,
    c.map_fields_normal fun f => by rw [f.declaration_normal]]

@[simp] theorem handler_normal : handler c.normal = handler c := rfl

@[simp] theorem registration_normal : registration c.normal = registration c := by
  simp only [registration, Command.exportName_normal, Command.bridgeName_normal]

@[simp] theorem signature_normal : c.normal.signature = c.signature := by
  unfold Command.signature
  rw [c.isEmpty_fields_normal, c.exportName_normal, c.optionsName_normal]

@[simp] theorem optionsInterface_normal : optionsInterface c.normal = optionsInterface c := by
  rw [optionsInterface, optionsInterface, c.map_fields_normal fun f => optionMember_normal f,
    c.optionsName_normal]

@[simp] theorem ArgvCode.commandCode_normal : commandCode c.normal = commandCode c := by
  have hflags : flagCode c.normal = flagCode c := by
    rw [flagCode, flagCode, c.map_fields_normal fun f => by rw [f.flag_normal, supply_normal]]
  rw [commandCode, commandCode, c.isEmpty_fields_normal, c.recordName_normal, hflags,
    c.map_requiredFields_normal fun f => seenLocal_normal f]

@[simp] theorem scriptFunction_normal : scriptFunction c.normal = scriptFunction c := by
  have hsupply : ∀ next, OptionsCode.supplyAll c.normal next = OptionsCode.supplyAll c next := by
    intro next
    have hfields : c.normal.fields.foldr OptionsCode.supply next =
        c.fields.foldr OptionsCode.supply next := by
      rw [Command.normal, List.foldr_map]
      simp only [OptionsCode.supply_normal]
    rw [OptionsCode.supplyAll, OptionsCode.supplyAll, c.isEmpty_fields_normal, hfields]
  rw [scriptFunction, scriptFunction, OptionsCode.ofCommand, OptionsCode.ofCommand, hsupply,
    c.recordName_normal, c.bridgeName_normal]

end Generated

/-! ## Schemas -/

/-- The schema with all its commands like that. -/
def Schema.normal (s : Schema) : Schema := { commands := s.commands.map (·.normal) }

section Schema

variable (s : Schema)

theorem Schema.map_commands_normal {α : Type} {g : Command → α}
    (h : ∀ c : Command, g c.normal = g c) : s.normal.commands.map g = s.commands.map g := by
  rw [normal, List.map_map]
  exact List.map_congr_left fun c _ => h c

theorem Schema.flatMap_commands_normal {α : Type} {g : Command → List α}
    (h : ∀ c : Command, g c.normal = g c) : s.normal.commands.flatMap g = s.commands.flatMap g := by
  rw [List.flatMap, s.map_commands_normal h, ← List.flatMap]

namespace Generated

theorem header_normal (config : Config) : header s.normal config = header s config := by
  rw [header, header, union, union, s.map_commands_normal Command.recordName_normal,
    s.flatMap_commands_normal fun c => by rw [record_normal]]

theorem runHeader_normal (config : Config) : runHeader s.normal config = runHeader s config := by
  rw [runHeader, runHeader, s.map_commands_normal handler_normal]

theorem source_normal (config : Config) : source s.normal config = source s config := by
  have hcode : ArgvCode.ofSchema s.normal = ArgvCode.ofSchema s := by
    rw [ArgvCode.ofSchema, ArgvCode.ofSchema,
      s.map_commands_normal fun c => by rw [c.name_normal, ArgvCode.commandCode_normal]]
  rw [source, source, argvParser, argvParser, hcode]

theorem bridge_normal (config : Config) : bridge s.normal config = bridge s config := by
  rw [bridge, bridge, registrations, registrations, s.map_commands_normal registration_normal,
    s.flatMap_commands_normal fun c => by rw [scriptFunction_normal]]

theorem declarations_normal (config : Config) :
    declarations s.normal config = declarations s config := by
  have hempty : (fun c : Command => !c.fields.isEmpty) ∘ Command.normal =
      fun c => !c.fields.isEmpty :=
    funext fun c => by rw [Function.comp_apply, c.isEmpty_fields_normal]
  have hinterfaces : (s.normal.commands.filter fun c => !c.fields.isEmpty).flatMap
      (fun c => optionsInterface c ++ [.blank]) =
        (s.commands.filter fun c => !c.fields.isEmpty).flatMap
          (fun c => optionsInterface c ++ [.blank]) := by
    rw [Schema.normal, List.filter_map, hempty, List.flatMap_map]
    simp only [optionsInterface_normal]
  rw [declarations, declarations, hinterfaces,
    s.map_commands_normal fun c => by rw [signature_normal]]

end Generated

/-- The files of a schema and of its normal form are the same. -/
theorem Artifacts.ofSchema_normal (config : Config) :
    ofSchema s.normal config = ofSchema s config := by
  rw [ofSchema, ofSchema, Generated.header_normal, Generated.runHeader_normal,
    Generated.source_normal, Generated.bridge_normal, Generated.declarations_normal]

end Schema

end CommandSchema
