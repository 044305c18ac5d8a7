import CommandSchema.Proofs.Generated.Order
import CommandSchema.Proofs.Record

/-!
# The table of exports

The bridge registers every function under the name of an export. The table of these registrations is
a lookup of commands by their exports, just as the one in the schema.

* `exportTable`: the names of exports with those of functions, read from a bridge.
* `exported?`: the program that a bridge exports under a name; `registered?`: the command whose
  record it starts.
* `Registers`: the table of a bridge is that of a schema.
* `findsAll_of_load`: all lookups of a loaded schema and the tables of its bridges are inverse to the
  lists.
-/

namespace CommandSchema.Generated

open Layout Text

/-! ## Statement -/

/-- The name of the export and that of the function in a registration, from the text after its
introduction. -/
def exportRow? (rest : String) : Option (String × String) :=
  match rest.toList with
  | '\x22' :: cs =>
    (unquote? cs).bind fun key =>
      ((between? "] = Napi::Function::New(env, " ");" key.2).bind name?).map (.ofList key.1, ·)
  | _ => none

/-- The registrations of a bridge, in their order. -/
def exportTable (bridge : String) : List (String × String) :=
  (innerLinesAfter ["exports["] bridge).filterMap exportRow?

/-- The program that a bridge exports under a name. Of several registrations of a name, the last one
counts. -/
def exported? (bridge name : String) : Option OptionsCode.Body :=
  ((exportTable bridge).reverse.lookup name).bind (OptionsCode.program? · bridge)

/-- The record that a program starts. -/
def OptionsCode.record? : Body → Option String
  | .run (.newRecord record) _ => some record
  | _ => none

/-- The command whose record is started under a name. -/
def registered? (s : Schema) (bridge name : String) : Option Command :=
  ((exported? bridge name).bind OptionsCode.record?).bind fun record =>
    s.commands.find? (·.recordName == record)

/-- A bridge registers the exports of a schema in their order, each with the program of the command
that it stands for. -/
structure Registers (s : Schema) (bridge : String) : Prop where
  keys : (exportTable bridge).map (·.1) = s.exports
  programs : ∀ name, exported? bridge name = (s.commandByExport? name).map fun c =>
    (OptionsCode.ofCommand c).map OptionsCode.Instruction.shown
  commands : Inverts (registered? s bridge) (·.exportName) s.commands

/-! ## The table of a bridge -/

variable {s : Schema} {config : Config}

theorem exportRow?_registrationRest {c : Command} (hc : c.IsWritten) :
    exportRow? (registrationRest c) = some (c.exportName, c.bridgeName) := by
  have hquote : (registrationRest c).toList =
      (quote c.exportName).toList ++ ("] = Napi::Function::New(env, ".toList ++
        c.bridgeName.toList ++ ");".toList) := by
    simp only [registrationRest, String.toList_append, List.append_assoc]
  have htext : (registrationRest c).toList = '\x22' :: (quoteBody c.exportName.toList ++
      '\x22' :: ("] = Napi::Function::New(env, ".toList ++ c.bridgeName.toList ++
        ");".toList)) := by
    simp only [hquote, toList_quote, List.cons_append, List.append_assoc, List.nil_append]
  have hkey := unquote?_quoteBody c.exportName.toList ("] = Napi::Function::New(env, ".toList ++
    c.bridgeName.toList ++ ");".toList)
  have hfunction := between?_append "] = Napi::Function::New(env, " ");" c.bridgeName.toList
  rw [exportRow?, htext]
  simp only [hkey]
  rw [Option.bind_some, hfunction, Option.bind_some, name?_toList (isName_bridgeName hc),
    Option.map_some, String.ofList_toList]

theorem readAs_exportTable (hs : s.IsWritten) (config : Config) :
    ReadAs config (bridgeBody s) (bridge s config) exportTable
      (s.commands.map fun c => (c.exportName, c.bridgeName)) := by
  refine (innerLinesAfter_exports hs config).map (List.filterMap exportRow?) ?_
  have hentries : ∀ c ∈ s.commands, (exportRow? ∘ registrationRest) c =
      (some ∘ fun c => (c.exportName, c.bridgeName)) c := by
    intro c hc
    rw [Function.comp_apply, exportRow?_registrationRest (hs.commands c hc)]
    rfl
  rw [List.filterMap_map, List.filterMap_congr hentries, List.filterMap_eq_map]

section Loaded

variable {foreignTypes : List String}

/-- In the table of a loaded schema, every export stands for the function of its command. -/
theorem lookup_exportTable (hs : s.IsLoaded foreignTypes) (name : String) :
    (s.commands.map fun c => (c.exportName, c.bridgeName)).reverse.lookup name =
      (s.commandByExport? name).map (·.bridgeName) := by
  have hkeys : ((s.commands.map fun c => (c.exportName, c.bridgeName)).map (·.1)).Nodup := by
    rw [List.map_map]
    exact hs.exportNames
  have hreverse : ((s.commands.map fun c => (c.exportName, c.bridgeName)).reverse.map
      (·.1)).Nodup := by
    rw [List.map_reverse]
    exact List.nodup_reverse.2 hkeys
  refine Option.ext fun function => ?_
  rw [lookup_eq_some_iff_mem hreverse, List.mem_reverse, List.mem_map, Option.map_eq_some_iff]
  refine exists_congr fun c => ?_
  rw [Schema.commandByExport?, find?_key_eq_some_iff hs.exportNames, Prod.mk.injEq, and_assoc]

theorem registers_of_read (hs : s.IsLoaded foreignTypes) {bridge : String}
    (htable : exportTable bridge = s.commands.map fun c => (c.exportName, c.bridgeName))
    (hprograms : ∀ c ∈ s.commands, OptionsCode.program? c.bridgeName bridge =
      some ((OptionsCode.ofCommand c).map OptionsCode.Instruction.shown)) :
    Registers s bridge := by
  have hexported : ∀ name, exported? bridge name = (s.commandByExport? name).map fun c =>
      (OptionsCode.ofCommand c).map OptionsCode.Instruction.shown := by
    intro name
    rw [exported?, htable, lookup_exportTable hs]
    cases hc : s.commandByExport? name with
    | none => rfl
    | some c => exact hprograms c (mem_of_find?_key hc).1
  have hregistered : registered? s bridge = s.commandByExport? := by
    funext name
    rw [registered?, hexported]
    cases hc : s.commandByExport? name with
    | none => rfl
    | some c => exact hs.recordNamed (mem_of_find?_key hc).1
  refine ⟨?_, hexported, ?_⟩
  · rw [htable, List.map_map]
    rfl
  · rw [hregistered]
    exact hs.findsAll.exported

end Loaded

/-- In a loaded schema, every lookup of a command or of a field is inverse to the list of them: by
its name, by its export, by its flag. So is the table of exports in the bridge, which is read from
the part that depends on the schema alone and, where no text of the configuration breaks a line, from
the whole file. Exports are distinct. -/
theorem findsAll_of_load {text : String} {config : Config} {s : Schema}
    (hs : Schema.load text config = .ok s) :
    s.FindsAll ∧ s.exports.Nodup ∧ Registers s (bodies s).bridge ∧
      ∀ emission : Config,
        (∃ front back,
          (Artifacts.ofSchema s emission).bridge = front ++ (bodies s).bridge ++ back) ∧
        (emission.IsPlain → Registers s (Artifacts.ofSchema s emission).bridge) := by
  have hl := Schema.isLoaded_of_load hs
  have hw := hl.written
  have htable := readAs_exportTable hw
  have hprogram := fun c (hc : c ∈ s.commands) emission =>
    OptionsCode.readAs_program? hw hl.rules.recordNames hc emission
  refine ⟨hl.findsAll, hl.exportNames, ?_, fun emission => ⟨?_, fun hplain => ?_⟩⟩
  · exact registers_of_read hl (htable {}).body fun c hc => (hprogram c hc {}).body
  · exact isPart_bridge hw emission
  · exact registers_of_read hl ((htable emission).file hplain)
      fun c hc => (hprogram c hc emission).file hplain

/-- Exports that only an underscore or the case of a letter keeps apart, one of which starts with a
digit. -/
theorem findsAll_of_load_add_user :
    let user : Field := ⟨"-u", "user", .string, false, false, none⟩
    let again : Field := ⟨"-U", "again", .string, true, false, none⟩
    let go : Command := ⟨"_2go", []⟩
    let add : Command := ⟨"_add_user", [user, again]⟩
    let adduser : Command := ⟨"adduser", [user]⟩
    let s : Schema := ⟨[go, add, adduser]⟩
    let files := Artifacts.ofSchema s {}
    Schema.load ("_2go:\n_add_user:\n  -u: string user\n  -U: string again?\n" ++
        "adduser:\n  -u: string user\n") {} = .ok s ∧
      s.exports = ["2go", "addUser", "adduser"] ∧
      s.commandByExport? "addUser" = some add ∧ s.commandByExport? "AddUser" = none ∧
      add.fieldByFlag? "-U" = some again ∧ add.field? "User" = none ∧
      (exportTable files.bridge).map (·.1) = ["2go", "addUser", "adduser"] ∧
      registered? s files.bridge "adduser" = some adduser ∧
      registered? s files.bridge "2Go" = none := by
  intro user again go add adduser s files
  have hload : Schema.load ("_2go:\n_add_user:\n  -u: string user\n  -U: string again?\n" ++
      "adduser:\n  -u: string user\n") {} = .ok s := Schema.load_of_toOption (by decide +kernel)
  obtain ⟨hall, -, -, hfiles⟩ := findsAll_of_load hload
  have hexports : s.exports = ["2go", "addUser", "adduser"] := by decide +kernel
  have hregisters := (hfiles {}).2 (Config.isPlain_default _)
  have hadduser : adduser.exportName = "adduser" := by decide +kernel
  have hadd : add.exportName = "addUser" := by decide +kernel
  refine ⟨hload, hexports, ?_, ?_, ?_, ?_, hexports ▸ hregisters.keys, ?_, ?_⟩
  · exact hadd ▸ hall.exported.found 1 add rfl
  · exact hall.exported.absent "AddUser" (by decide +kernel)
  · exact (hall.flags add (by simp [s])).found 1 again rfl
  · exact (hall.fields add (by simp [s])).absent "User" (by decide +kernel)
  · exact hadduser ▸ hregisters.commands.found 2 adduser rfl
  · exact hregisters.commands.absent "2Go" (by decide +kernel)

end CommandSchema.Generated
