import CommandSchema.Generated.Artifacts
import CommandSchema.Proofs.Generated.OptionsText
import Mathlib.Data.List.Infix

/-!
# Names that are declared for a command

The generated files declare records, functions and types for every command, under names that are
derived from the name of the command. That name is an identifier, but what is derived from it need
not be one: it is without underscores and so starts with the first letter or digit.

* `declaredName?`: the name that a text declares, read from its first line.
* `declaredNames`: the names that are declared for a command.
* `isInfix_of_mem_declarationsOf`: what declares them is a part of the generated files.
* `Schema.isIdentifier_derived`: when the derived names are identifiers.
-/

namespace CommandSchema.Generated

open Layout Text

/-- The name that a text declares on its first line, where its introduction stands before it. -/
def declaredName? (introduction : String) (steps : List Step) : Option String := do
  let line ← (lines steps).head?
  let rest ← line.dropPrefix? introduction.toList
  return (word rest).1

/-- The parts of the generated files that declare something for a command, each with what it
introduces the name with. Only a command with fields has options to declare. -/
def declarationsOf (c : Command) : List (String × List Step) :=
  [("struct ", record c), ("auto run (const ", [handler c]), ("auto ", scriptFunction c),
    ("export function ", [.line c.signature])] ++
    if c.fields.isEmpty then [] else [("interface ", optionsInterface c)]

/-- The names that are declared for a command. -/
def declaredNames (c : Command) : List (Option String) :=
  (declarationsOf c).map fun d => declaredName? d.1 d.2

/-- The files that hold declarations for commands. -/
def declaringFiles (s : Schema) (config : Config) : List (List Step) :=
  [header s config, runHeader s config, bridge s config, declarations s config]

/-! ## Declarations in the files -/

section Files

variable {s : Schema} {c : Command}

/-- What is written for one of several commands is a part of what is written for all. -/
theorem isInfix_flatMap (f : Command → List Step) {cs : List Command} (hc : c ∈ cs) :
    f c <:+: cs.flatMap fun c => f c ++ [.blank] := by
  have hall : f c ++ [.blank] <:+: (cs.map fun c => f c ++ [.blank]).flatten :=
    List.infix_of_mem_flatten (List.mem_map.2 ⟨c, hc, rfl⟩)
  exact List.infix_append_left.trans hall

theorem isInfix_record (hc : c ∈ s.commands) (config : Config) : record c <:+: header s config := by
  have hpart := isInfix_flatMap record hc
  unfold header guarded
  simp only [List.append_assoc]
  iterate 4 refine List.infix_append_of_infix_right ?_
  exact List.infix_append_of_infix_left hpart

theorem isInfix_handler (hc : c ∈ s.commands) (config : Config) :
    [handler c] <:+: runHeader s config := by
  have hmem : handler c ∈ runHeader s config := by
    simp [runHeader, guarded, List.mem_map_of_mem hc]
  exact (List.singleton_infix_iff ..).2 hmem

theorem isInfix_scriptFunction (hc : c ∈ s.commands) (config : Config) :
    scriptFunction c <:+: bridge s config := by
  have hpart := isInfix_flatMap scriptFunction hc
  unfold bridge
  simp only [List.append_assoc]
  iterate 5 refine List.infix_append_of_infix_right ?_
  exact List.infix_append_of_infix_left hpart

theorem isInfix_optionsInterface (hc : c ∈ s.commands) (hf : c.fields.isEmpty = false)
    (config : Config) : optionsInterface c <:+: declarations s config := by
  have hmem : c ∈ s.commands.filter fun c => !c.fields.isEmpty :=
    List.mem_filter.2 ⟨hc, by simpa using hf⟩
  have hpart := isInfix_flatMap optionsInterface hmem
  exact List.infix_append_of_infix_left (List.infix_append_of_infix_right hpart)

theorem isInfix_signature (hc : c ∈ s.commands) (config : Config) :
    [.line c.signature] <:+: declarations s config := by
  have hmem : .line c.signature ∈ declarations s config :=
    List.mem_append_right _ (List.mem_map.2 ⟨c, hc, rfl⟩)
  exact (List.singleton_infix_iff ..).2 hmem

/-- Whatever is declared for a command is a part of one of the files. -/
theorem isInfix_of_mem_declarationsOf (hc : c ∈ s.commands) (config : Config) :
    ∀ d ∈ declarationsOf c, ∃ file ∈ declaringFiles s config, d.2 <:+: file := by
  intro d hd
  unfold declarationsOf at hd
  obtain hd | hd := List.mem_append.1 hd
  · simp only [List.mem_cons, List.not_mem_nil, or_false] at hd
    rcases hd with rfl | rfl | rfl | rfl
    · exact ⟨_, by simp [declaringFiles], isInfix_record hc config⟩
    · exact ⟨_, by simp [declaringFiles], isInfix_handler hc config⟩
    · exact ⟨_, by simp [declaringFiles], isInfix_scriptFunction hc config⟩
    · exact ⟨_, by simp [declaringFiles], isInfix_signature hc config⟩
  · split at hd
    · cases hd
    · next hf =>
      obtain rfl := List.mem_singleton.1 hd
      exact ⟨_, by simp [declaringFiles], isInfix_optionsInterface hc (by simpa using hf) config⟩

end Files

/-! ## The declared names -/

/-- A name is read between its introduction and a space. -/
theorem declaredName?_of_line {introduction name ending : String}
    (hintro : '\n' ∉ introduction.toList) (hname : IsName name)
    (hspace : ending.toList.head? = some ' ') (hending : FillsLine ending) {text : String}
    (htext : text = introduction ++ name ++ ending) {step : Step}
    (hstep : step.lines 0 = textLines 0 text) (steps : List Step) :
    declaredName? introduction (step :: steps) = some name := by
  have hline : '\n' ∉ (introduction ++ name).toList := by
    rw [String.toList_append, List.mem_append, not_or]
    exact ⟨hintro, hname.not_mem (by decide)⟩
  obtain ⟨cs, hcs⟩ : ∃ cs, ending.toList = ' ' :: cs := List.head?_eq_some_iff.1 hspace
  have hhead : (lines (step :: steps)).head? =
      some (introduction.toList ++ (name.toList ++ ' ' :: cs)) := by
    rw [lines, linesFrom_cons, hstep, htext,
      textLines_of_fillsLine _ (fillsLine_append hline hending), lineAt_zero]
    simp [hcs]
  have hprefix : (introduction.toList ++ (name.toList ++ ' ' :: cs)).dropPrefix?
      introduction.toList = some (name.toList ++ ' ' :: cs) :=
    List.dropPrefix?_append_of_beq _ (by simp)
  simp only [declaredName?, hhead, hprefix, Option.bind_eq_bind, Option.bind_some,
    word_append hname (show isIdentifierRest ' ' = false by decide)]
  rfl

section Command

variable {c : Command}

theorem isName_bridgeName (h : c.IsWritten) : IsName c.bridgeName := by
  have hnode : IsName "node" := by simp [IsName, isIdentifierRest]
  exact hnode.append h.isName_recordName

theorem isName_optionsName (h : c.IsWritten) : IsName c.optionsName := by
  have hoptions : IsName "Options" := by simp [IsName, isIdentifierRest]
  exact h.isName_recordName.append hoptions

theorem isName_exportName (h : c.IsWritten) : IsName c.exportName :=
  isName_of_isAlphanum (isAlphanum_of_mem_camel h.name)

theorem declaredName?_record (h : c.IsWritten) :
    declaredName? "struct " (record c) = some c.recordName := by
  unfold record
  split
  · exact declaredName?_of_line (by decide) h.isName_recordName (by decide)
      (fillsLine_ofList (c := ';') (by decide) rfl (by decide)) rfl rfl []
  · exact declaredName?_of_line (by decide) h.isName_recordName (by decide)
      (fillsLine_ofList (c := '\x7b') (by decide) rfl (by decide)) rfl rfl _

theorem declaredName?_handler (h : c.IsWritten) :
    declaredName? "auto run (const " [handler c] = some c.recordName :=
  declaredName?_of_line (by decide) h.isName_recordName (by decide)
    (fillsLine_ofList (c := ';') (by decide) rfl (by decide)) rfl rfl []

theorem declaredName?_scriptFunction (h : c.IsWritten) :
    declaredName? "auto " (scriptFunction c) = some c.bridgeName :=
  declaredName?_of_line (by decide) (isName_bridgeName h) (by decide)
    (fillsLine_ofList (c := ')') (by decide) rfl (by decide)) rfl rfl _

theorem declaredName?_optionsInterface (h : c.IsWritten) :
    declaredName? "interface " (optionsInterface c) = some c.optionsName :=
  declaredName?_of_line (by decide) (isName_optionsName h) (by decide)
    (fillsLine_ofList (c := '\x7b') (by decide) rfl (by decide)) rfl rfl _

theorem declaredName?_signature (h : c.IsWritten) :
    declaredName? "export function " [.line c.signature] = some c.exportName := by
  -- What stands in the parentheses fits on the line.
  have hsignature : ∃ parameter, '\n' ∉ parameter.toList ∧ c.signature =
      "export function " ++ c.exportName ++ (" (" ++ parameter ++ "): Response") := by
    refine ⟨if c.fields.isEmpty then "" else "options: " ++ c.optionsName, ?_, ?_⟩
    · have hoptions : '\n' ∉ c.optionsName.toList := (isName_optionsName h).not_mem (by decide)
      split <;> simp [hoptions]
    · unfold Command.signature
      simp only [String.append_assoc]
  obtain ⟨parameter, hparameter, htext⟩ := hsignature
  have hspace : (" (" ++ parameter ++ "): Response").toList.head? = some ' ' := by simp
  have hopening : '\n' ∉ (" (" ++ parameter).toList := by simp [hparameter]
  have hending : FillsLine (" (" ++ parameter ++ "): Response") :=
    fillsLine_append hopening (fillsLine_ofList (c := 'e') (by decide) rfl (by decide))
  have hintro : '\n' ∉ "export function ".toList := by decide
  have hstep : (Step.line c.signature).lines 0 = textLines 0 c.signature := rfl
  exact declaredName?_of_line hintro (isName_exportName h) hspace hending htext hstep []

/-- What is declared for a command is its record, twice, its function in the bridge and the export,
and, where it has fields, their interface. -/
theorem declaredNames_eq (h : c.IsWritten) :
    declaredNames c = ([c.recordName, c.recordName, c.bridgeName, c.exportName] ++
      if c.fields.isEmpty then [] else [c.optionsName]).map some := by
  rw [declaredNames, declarationsOf]
  split
  · simp [declaredName?_record h, declaredName?_handler h, declaredName?_scriptFunction h,
      declaredName?_signature h]
  · simp [declaredName?_record h, declaredName?_handler h, declaredName?_scriptFunction h,
      declaredName?_signature h, declaredName?_optionsInterface h]

/-- Whatever the command is called, the name of its function in the bridge is an identifier. -/
theorem isIdentifier_bridgeName (h : c.IsWritten) : isIdentifier c.bridgeName = true :=
  isIdentifier_append (by decide) h.isName_recordName

/-- The names that are declared are identifiers exactly if the name of the command has a letter
before its first digit. -/
theorem all_isIdentifier_declaredNames (h : c.IsWritten) :
    (declaredNames c).all (·.any isIdentifier) = startsLettered c.name := by
  have hrecord : isIdentifier c.recordName = startsLettered c.name := isIdentifier_pascal h.name
  have hexport : isIdentifier c.exportName = startsLettered c.name := isIdentifier_camel h.name
  rw [declaredNames_eq h]
  cases hl : startsLettered c.name with
  | false => simp [hrecord, hl]
  | true =>
    have hoptions : isIdentifier c.optionsName = true :=
      isIdentifier_append (hrecord.trans hl) (by simp [IsName, isIdentifierRest])
    split <;> simp [hrecord, hexport, hl, isIdentifier_bridgeName h, hoptions]

end Command

end CommandSchema.Generated

namespace CommandSchema.Schema

open Generated Text

/-- Of a loaded schema, what is derived from the name of a command is an identifier exactly if the
first character of the name that is no underscore is a letter, and so is every name that the files
declare for the command. -/
theorem isIdentifier_derived {text : String} {config : Config} {s : Schema}
    (hs : load text config = .ok s) {c : Command} (hc : c ∈ s.commands) :
    isIdentifier c.recordName = startsLettered c.name ∧
      isIdentifier c.exportName = startsLettered c.name ∧
      (∀ d ∈ declarationsOf c, ∃ file ∈ declaringFiles s config, d.2 <:+: file) ∧
      (declaredNames c).all (·.any isIdentifier) = startsLettered c.name := by
  have h : c.IsWritten := (isLoaded_of_load hs).written.commands c hc
  exact ⟨isIdentifier_pascal h.name, isIdentifier_camel h.name,
    isInfix_of_mem_declarationsOf hc config, all_isIdentifier_declaredNames h⟩

/-- Underscores before a letter do no harm. -/
theorem isIdentifier_derived_add_user :
    let add : Command := ⟨"__add__2nd_user", [⟨"-u", "user", .string, false, false, none⟩]⟩
    load "__add__2nd_user:\n  -u: string user\n" {} = .ok ⟨[add]⟩ ∧ add ∈ [add] ∧
      declaredNames add = [some "Add2ndUser", some "Add2ndUser", some "nodeAdd2ndUser",
        some "add2ndUser", some "Add2ndUserOptions"] ∧
      isIdentifier add.recordName = true ∧ isIdentifier add.exportName = true ∧
      (declaredNames add).all (·.any isIdentifier) = true := by
  intro add
  have hs : load "__add__2nd_user:\n  -u: string user\n" {} = .ok ⟨[add]⟩ :=
    load_of_toOption (by decide +kernel)
  have hc : add ∈ [add] := List.mem_singleton.2 rfl
  have hl : startsLettered add.name = true := by decide +kernel
  obtain ⟨hrecord, hexport, -, hdeclared⟩ := isIdentifier_derived hs hc
  exact ⟨hs, hc, by decide +kernel, hrecord.trans hl, hexport.trans hl, hdeclared.trans hl⟩

/-- Underscores before a digit leave the digit at the start of every derived name, and a name of
underscores alone leaves nothing. -/
theorem not_isIdentifier_derived :
    let login : Command := ⟨"_2fa", [⟨"-c", "code", .string, false, false, none⟩]⟩
    load "_2fa:\n  -c: string code\n" {} = .ok ⟨[login]⟩ ∧ isIdentifier login.name = true ∧
      isIdentifier login.recordName = false ∧ isIdentifier login.exportName = false ∧
      declaredNames login = [some "2fa", some "2fa", some "node2fa", some "2fa",
        some "2faOptions"] ∧
    load "__: \x7b\x7d\n" {} = .ok ⟨[⟨"__", []⟩]⟩ ∧
      declaredNames ⟨"__", []⟩ = [some "", some "", some "node", some ""] := by
  intro login
  have hs : load "_2fa:\n  -c: string code\n" {} = .ok ⟨[login]⟩ :=
    load_of_toOption (by decide +kernel)
  have hs' : load "__: \x7b\x7d\n" {} = .ok ⟨[⟨"__", []⟩]⟩ := load_of_toOption (by decide +kernel)
  refine ⟨hs, ?_, ?_, ?_, ?_, hs', ?_⟩ <;> decide +kernel

end CommandSchema.Schema
