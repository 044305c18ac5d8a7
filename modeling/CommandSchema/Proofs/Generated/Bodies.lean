import CommandSchema.Proofs.Generated.ArgvText
import CommandSchema.Proofs.Generated.DerivedNames
import CommandSchema.Proofs.Generated.Framed
import CommandSchema.Proofs.Generated.Marks

/-!
# The parts of the generated files

The bodies of the files are put together from parts, most of them one for each command; so is what
a view takes from them.

* `Spelling`: the lines of a fixed description, spelled out; `Spelling.shows`: what a view takes from
  it.
* `record_of_nil`, `record_of_ne_nil`, `union_eq`, `optionsInterface_eq`: the blocks that are
  declared.
* `shows_headerBody`, `shows_bridgeBody`, `shows_declarationsBody`: what a view takes from a body,
  from what it takes from the parts.
* `shows_after_record` and others: what follows an introduction in these parts.
* `bodies`, `isPart_bodies`: the texts of the bodies are parts of the files.
* `bodies_eq_of_files_eq`: the texts of two bodies are the same if those of their files are.
* `ArgvCode.readAs_program?`, `OptionsCode.readAs_program?`: the programs in the bodies.
-/

namespace CommandSchema

open Layout Text

/-! ## Fixed parts -/

namespace Layout

/-- The lines of a fixed description with their characters. To check what they are is faster than to
take them from texts over and over. -/
structure Spelling (steps : List Step) where
  lines : List (List Char)
  lines_eq : Layout.lines steps = lines

/-- What a view takes from lines that are spelled out. -/
theorem Spelling.shows {α : Type} {v : View α} {steps : List Step} {found : List α}
    (s : Spelling steps) (hlevel : levelAfter 0 steps = 0) (houtside : Outside s.lines)
    (hfound : v.of s.lines = found) : Shows v steps found :=
  ⟨hlevel, s.lines_eq ▸ houtside, s.lines_eq ▸ hfound⟩

end Layout

namespace Generated

/-- The lines of the prelude of the bridge. -/
def bridgePreludeSpelling : Spelling bridgePrelude where
  lines := _
  lines_eq := by
    -- The lines are what is left when every literal has been taken apart.
    simp only [bridgePrelude, lines, linesFrom, Step.lines, Step.level, textLines]
    repeat rewrite [String.toList_ofList]
    rfl

/-- The lines of the aliases. -/
def typeAliasesSpelling : Spelling typeAliases where
  lines := _
  lines_eq := by
    simp only [typeAliases, lines, linesFrom, Step.lines, Step.level, textLines]
    repeat rewrite [String.toList_ofList]
    rfl

/-- The lines that declare the parsers. -/
def parserDeclarationsSpelling : Spelling parserDeclarations where
  lines := _
  lines_eq := by
    simp only [parserDeclarations, lines, linesFrom, Step.lines, Step.level, textLines]
    repeat rewrite [String.toList_ofList]
    rfl

/-- The lines of the comment on the handlers. -/
def handlerCommentSpelling : Spelling handlerComment where
  lines := _
  lines_eq := by
    simp only [handlerComment, lines, linesFrom, Step.lines, Step.level, textLines]
    repeat rewrite [String.toList_ofList]
    rfl

end Generated

/-! ## Lines of declarations -/

namespace Field

variable {f : Field}

/-- A declared type consists of names and of what joins them. -/
theorem forall_mem_cppType (h : f.IsWritten) :
    ∀ c ∈ f.cppType.toList, isIdentifierRest c = true ∨ c ∈ ['<', '>', ':'] := by
  have htype : ∀ c ∈ f.type.cppType.toList, isIdentifierRest c = true ∨ c ∈ ['<', '>', ':'] := by
    unfold FieldType.cppType
    split
    · simp [isIdentifierRest]
    · exact fun c hc => .inl (isIdentifierRest_of_mem h.typeName c hc)
  have hend : ∀ c ∈ ">".toList, isIdentifierRest c = true ∨ c ∈ ['<', '>', ':'] := by simp
  unfold cppType
  split_ifs
  · rw [String.toList_append, String.toList_append, List.forall_mem_append, List.forall_mem_append]
    exact ⟨⟨by simp [isIdentifierRest], htype⟩, hend⟩
  · rw [String.toList_append, String.toList_append, List.forall_mem_append, List.forall_mem_append]
    exact ⟨⟨by simp [isIdentifierRest], htype⟩, hend⟩
  · exact htype

theorem newline_not_mem_cppType (h : f.IsWritten) : '\n' ∉ f.cppType.toList := fun hn =>
  absurd (forall_mem_cppType h _ hn) (by decide)

theorem space_not_mem_cppType (h : f.IsWritten) : ' ' ∉ f.cppType.toList := fun hn =>
  absurd (forall_mem_cppType h _ hn) (by decide)

/-- A declaration is a type, a space and a name, and what follows the name is none. -/
theorem declaration_eq (f : Field) : ∃ rest, f.declaration = f.cppType ++ " " ++ f.name ++ rest ∧
    rest.toList.head?.any (!isIdentifierRest ·) = true := by
  unfold declaration
  split
  · next e _ =>
    refine ⟨" = " ++ e ++ ";", ?_, by simp [isIdentifierRest]⟩
    simp only [String.append_assoc]
  · exact ⟨";", rfl, by decide⟩

/-- The declaration of a member fits on its line, whatever its initializer is. -/
theorem fillsLine_declaration (h : f.IsWritten) : FillsLine f.declaration := by
  have htype := newline_not_mem_cppType h
  have hname : '\n' ∉ f.name.toList := h.isName_name.not_mem (by decide)
  unfold declaration
  split
  · next e he =>
    have hinitial := (h.initial e he).2
    exact fillsLine_of_getLast? (c := ';') (by simp [htype, hname, hinitial])
      (getLast?_toList_append _ (by decide)) (by decide)
  · exact fillsLine_of_getLast? (c := ';') (by simp [htype, hname])
      (getLast?_toList_append _ (by decide)) (by decide)

/-- The text of a member of the options. -/
def memberText (f : Field) : String :=
  f.name ++ (if f.mayBeAbsent then "?" else "") ++ ": " ++ f.tsType

/-- The type of a member fits on the line, and its end is visible. -/
theorem fillsLine_tsType (f : Field) : FillsLine f.tsType := by
  have htype : FillsLine f.type.tsType := by
    cases f.type with
    | string | char | date => exact fillsLine_of_getLast? (c := 'g') (by decide) rfl (by decide)
    | foreign name =>
      show FillsLine "string"
      exact fillsLine_of_getLast? (c := 'g') (by decide) rfl (by decide)
    | int => exact fillsLine_of_getLast? (c := 'r') (by decide) rfl (by decide)
    | bool | duration => exact fillsLine_of_getLast? (c := 'n') (by decide) rfl (by decide)
    | instant => exact fillsLine_of_getLast? (c := 't') (by decide) rfl (by decide)
    | sortType => exact fillsLine_of_getLast? (c := 'e') (by decide) rfl (by decide)
  unfold tsType
  split_ifs
  · exact fillsLine_append htype.1
      (fillsLine_of_getLast? (c := ']') (by decide) rfl (by decide))
  · exact htype

theorem fillsLine_memberText (h : f.IsWritten) : FillsLine f.memberText := by
  have hname : '\n' ∉ f.name.toList := h.isName_name.not_mem (by decide)
  refine fillsLine_append ?_ (fillsLine_tsType f)
  split_ifs
  · simp [hname]
  · simp [hname]

end Field

namespace Generated

/-! ## Blocks -/

/-- Names with a comma after every one but the last. -/
def withCommas (names : List String) : List String :=
  names.dropLast.map (· ++ ",") ++ names.getLast?.toList

theorem alternatives_eq (names : List String) : alternatives names = (withCommas names).map .line := by
  induction names with
  | nil => rfl
  | cons name names ih =>
    cases names with
    | nil => rfl
    | cons next names => exact congrArg (Step.line (name ++ ",") :: ·) ih

/-- Names without white space are written without white space. -/
theorem isBlank_of_mem_withCommas {names : List String}
    (h : ∀ name ∈ names, ∀ c ∈ name.toList, isBlank c = false) :
    ∀ item ∈ withCommas names, ∀ c ∈ item.toList, isBlank c = false := by
  intro item hitem c hc
  obtain hitem | hitem := List.mem_append.1 hitem
  · obtain ⟨name, hname, rfl⟩ := List.mem_map.1 hitem
    rw [String.toList_append, List.mem_append] at hc
    obtain hc | hc := hc
    · exact h name (List.mem_of_mem_dropLast hname) c hc
    · obtain rfl : c = ',' := by simpa using hc
      decide
  · exact h item (List.mem_of_getLast? (Option.mem_toList.1 hitem)) c hc

theorem isBlank_of_mem_union {s : Schema} (hs : s.IsWritten) :
    ∀ item ∈ withCommas (s.commands.map (·.recordName)), ∀ c ∈ item.toList,
      isBlank c = false := by
  refine isBlank_of_mem_withCommas fun name hname c hc => ?_
  obtain ⟨d, hd, rfl⟩ := List.mem_map.1 hname
  exact isBlank_of_isIdentifierRest ((hs.commands d hd).isName_recordName c hc)

theorem union_eq (s : Schema) :
    union s = block "using Command = Variant<" (withCommas (s.commands.map (·.recordName))) ">;" := by
  rw [union, alternatives_eq, block]

/-- What follows the introduction of the struct of a command. -/
def structRest (c : Command) : String :=
  c.recordName ++ if c.fields.isEmpty then " \x7b\x7d;" else " \x7b"

theorem record_of_nil {c : Command} (h : c.fields = []) :
    record c = [.line ("struct " ++ structRest c)] := by
  have hempty : c.fields.isEmpty = true := by simpa using h
  rw [record, structRest, if_pos hempty, if_pos hempty, String.append_assoc]

theorem record_of_ne_nil {c : Command} (h : c.fields ≠ []) :
    record c = block ("struct " ++ structRest c) (c.fields.map (·.declaration)) "\x7d;" := by
  have hempty : ¬ c.fields.isEmpty = true := by simpa using h
  rw [record, structRest, if_neg hempty, if_neg hempty, block, List.map_map, String.append_assoc]
  rfl

theorem optionsInterface_eq (c : Command) :
    optionsInterface c =
      block ("interface " ++ c.optionsName ++ " \x7b") (c.fields.map (·.memberText)) "\x7d" := by
  rw [optionsInterface, block, List.map_map]
  rfl

/-- What follows the introduction of the function of a command in the declarations. -/
def signatureRest (c : Command) : String :=
  c.exportName ++ " (" ++ (if c.fields.isEmpty then "" else "options: " ++ c.optionsName) ++
    "): Response"

theorem signature_eq (c : Command) : c.signature = "export function " ++ signatureRest c := by
  unfold Command.signature signatureRest
  simp only [String.append_assoc]

/-- What follows the introduction of the registration of a command. -/
def registrationRest (c : Command) : String :=
  quote c.exportName ++ "] = Napi::Function::New(env, " ++ c.bridgeName ++ ");"

/-- The two lines of the signature of the function that registers all commands. -/
def registrationSignature : String := "auto init (Napi::Env env, Napi::Object exports)"

@[inherit_doc registrationSignature]
def registrationResult : String := " -> Napi::Object \x7b"

/-- The lines of its body. -/
def registrationTexts (s : Schema) : List String :=
  s.commands.map (fun c => "exports[" ++ registrationRest c) ++ ["return exports;"]

theorem registrations_eq (s : Schema) :
    registrations s =
      function registrationSignature registrationResult ((registrationTexts s).map .line) := by
  have hregistration : ∀ c, registration c = .line ("exports[" ++ registrationRest c) := by
    intro c
    unfold registration registrationRest
    simp only [String.append_assoc]
  have hall : s.commands.map registration =
      (s.commands.map fun c => "exports[" ++ registrationRest c).map .line := by
    rw [List.map_map]
    exact List.map_congr_left fun c _ => hregistration c
  rw [registrations, hall, function, registrationTexts, List.map_append]
  simp only [List.append_assoc]
  rfl

section Written

variable {c : Command}

theorem fillsLine_struct (h : c.IsWritten) : FillsLine ("struct " ++ structRest c) := by
  have hname : '\n' ∉ c.recordName.toList := h.isName_recordName.not_mem (by decide)
  unfold structRest
  split_ifs
  · exact fillsLine_of_getLast? (c := ';') (by simp [hname])
      (getLast?_toList_append _ (getLast?_toList_append _ (by decide))) (by decide)
  · exact fillsLine_of_getLast? (c := '\x7b') (by simp [hname])
      (getLast?_toList_append _ (getLast?_toList_append _ (by decide))) (by decide)

theorem fillsLine_interface (h : c.IsWritten) :
    FillsLine ("interface " ++ c.optionsName ++ " \x7b") := by
  have hname : '\n' ∉ c.optionsName.toList := (isName_optionsName h).not_mem (by decide)
  exact fillsLine_of_getLast? (c := '\x7b') (by simp [hname]) (getLast?_toList_append _ (by decide))
    (by decide)

theorem fillsLine_export (h : c.IsWritten) : FillsLine c.signature := by
  have hexport : '\n' ∉ c.exportName.toList := (isName_exportName h).not_mem (by decide)
  have hoptions : '\n' ∉ c.optionsName.toList := (isName_optionsName h).not_mem (by decide)
  rw [signature_eq]
  refine fillsLine_of_getLast? (c := 'e') ?_
    (getLast?_toList_append _ (getLast?_toList_append _ (by decide))) (by decide)
  unfold signatureRest
  split_ifs
  · simp [hexport]
  · simp [hexport, hoptions]

theorem fillsLine_registration (h : c.IsWritten) :
    FillsLine ("exports[" ++ registrationRest c) := by
  have hname : '\n' ∉ c.bridgeName.toList := (isName_bridgeName h).not_mem (by decide)
  refine fillsLine_of_getLast? (c := ';') ?_
    (getLast?_toList_append _ (getLast?_toList_append _ (by decide))) (by decide)
  simp [registrationRest, hname, newline_not_mem_quote]

end Written

/-! ## Views of bodies -/

section Bodies

variable {α : Type} {v : View α} {s : Schema}

theorem shows_headerBody {enum parsers united : List α} {entries : Command → List α}
    (henum : Shows v [.line "enum SortType \x7b kTime, kCost \x7d;"] enum)
    (hrecord : ∀ c ∈ s.commands, Shows v (record c) (entries c)) (hunion : Shows v (union s) united)
    (hparsers : Shows v parserDeclarations parsers) :
    Shows v (headerBody s) (enum ++ s.commands.flatMap entries ++ united ++ parsers) := by
  have hrecords := Shows.flatMap fun c hc => (hrecord c hc).append Shows.blank
  simp only [List.append_nil] at hrecords
  have hbody := (((henum.append Shows.blank).append hrecords).append hunion).append Shows.blank
  simp only [List.append_nil] at hbody
  exact hbody.append hparsers

theorem shows_bridgeBody {prelude registered : List α} {entries : Command → List α}
    (hprelude : Shows v bridgePrelude prelude)
    (hfunction : ∀ c ∈ s.commands, Shows v (scriptFunction c) (entries c))
    (hundef : Shows v
      [.line "#undef CPP_STR", .line "#undef CPP_INT", .line "#undef CPP_BOOL", .blank] [])
    (hregistrations : Shows v (registrations s) registered)
    (hmodule : Shows v [.blank, .line "NODE_API_MODULE(NODE_GYP_MODULE_NAME, init)"] []) :
    Shows v (bridgeBody s) (prelude ++ s.commands.flatMap entries ++ registered) := by
  have hfunctions := Shows.flatMap fun c hc => (hfunction c hc).append Shows.blank
  simp only [List.append_nil] at hfunctions
  have hbody := ((((hprelude.append Shows.blank).append hfunctions).append hundef).append
    hregistrations).append hmodule
  simp only [List.append_nil] at hbody
  exact hbody

theorem shows_declarationsBody {aliases : List α} {interfaces signatures : Command → List α}
    (haliases : Shows v typeAliases aliases)
    (hinterface : ∀ c ∈ s.commands, Shows v (optionsInterface c) (interfaces c))
    (hsignature : ∀ c ∈ s.commands, Shows v [.line c.signature] (signatures c)) :
    Shows v (declarationsBody s)
      (aliases ++ (s.commands.filter fun c => !c.fields.isEmpty).flatMap interfaces ++
        s.commands.flatMap signatures) := by
  have hinterfaces : Shows v ((s.commands.filter fun c => !c.fields.isEmpty).flatMap
      fun c => optionsInterface c ++ [.blank]) _ :=
    Shows.flatMap fun c hc => (hinterface c (List.mem_of_mem_filter hc)).append Shows.blank
  have hsignatures := Shows.flatMap hsignature
  rw [← List.map_eq_flatMap] at hsignatures
  simp only [List.append_nil] at hinterfaces
  have hbody := ((haliases.append Shows.blank).append hinterfaces).append hsignatures
  simp only [List.append_nil] at hbody
  exact hbody

end Bodies

/-! ## What follows the introductions of the parts -/

section After

variable {introductions : List String} {h : after? introductions [] = none} {s : Schema}
  {c : Command}

/-- Inner lines of blocks are passed over. -/
theorem after?_inner (hspace : ∀ i ∈ introductions, Clash i.toList [' ']) (cs : List Char) :
    after? introductions (indented 1 cs) = none :=
  after?_eq_none fun i hi hp =>
    (hspace i hi).not_starts (' ' :: cs) (hp.trans (isPrefix_trimEnd _))

/-- A struct is read on its first line. -/
theorem shows_after_record (hc : c.IsWritten)
    (hspace : ∀ i ∈ introductions, Clash i.toList [' '])
    (hclosing : after? introductions "\x7d;".toList = none) :
    Shows (.after introductions h) (record c)
      (after? introductions ("struct " ++ structRest c).toList).toList := by
  have hfills := fillsLine_struct hc
  have hhead : ("struct " ++ structRest c).toList.head? ≠ some ' ' := by simp
  by_cases hf : c.fields = []
  · rw [record_of_nil hf]
    exact shows_line hfills hhead
  · have hitems : ∀ item ∈ c.fields.map (·.declaration), '\n' ∉ item.toList := by
      intro item hitem
      obtain ⟨f, hf, rfl⟩ := List.mem_map.1 hitem
      exact (Field.fillsLine_declaration (hc.fields f hf)).1
    have hend : FillsLine "\x7d;" := fillsLine_of_getLast? (c := ';') (by decide) rfl (by decide)
    rw [record_of_ne_nil hf]
    exact shows_block hfills hitems hend hhead (fun item _ => after?_inner hspace item.toList)
      hclosing

/-- The union is read on its first line. -/
theorem shows_after_union (hs : s.IsWritten)
    (hspace : ∀ i ∈ introductions, Clash i.toList [' '])
    (hclosing : after? introductions ">;".toList = none) :
    Shows (.after introductions h) (union s)
      (after? introductions "using Command = Variant<".toList).toList := by
  have hnames : ∀ item ∈ withCommas (s.commands.map (·.recordName)), '\n' ∉ item.toList :=
    fun item hitem hn => absurd (isBlank_of_mem_union hs item hitem _ hn) (by decide)
  rw [union_eq]
  exact shows_block (fillsLine_of_getLast? (c := '<') (by decide) rfl (by decide))
    hnames (fillsLine_of_getLast? (c := ';') (by decide) rfl (by decide)) (by decide)
    (fun item _ => after?_inner hspace item.toList) hclosing

/-- The type of the options of a command is read on its first line. -/
theorem shows_after_optionsInterface (hc : c.IsWritten)
    (hspace : ∀ i ∈ introductions, Clash i.toList [' '])
    (hclosing : after? introductions "\x7d".toList = none) :
    Shows (.after introductions h) (optionsInterface c)
      (after? introductions ("interface " ++ (c.optionsName ++ " \x7b")).toList).toList := by
  have hitems : ∀ item ∈ c.fields.map (·.memberText), '\n' ∉ item.toList := by
    intro item hitem
    obtain ⟨f, hf, rfl⟩ := List.mem_map.1 hitem
    exact (Field.fillsLine_memberText (hc.fields f hf)).1
  rw [optionsInterface_eq, ← String.append_assoc]
  exact shows_block (fillsLine_interface hc) hitems
    (fillsLine_of_getLast? (c := '\x7d') (by decide) rfl (by decide)) (by simp)
    (fun item _ => after?_inner hspace item.toList) hclosing

theorem shows_after_signature (hc : c.IsWritten) :
    Shows (.after introductions h) [.line c.signature]
      (after? introductions ("export function " ++ signatureRest c).toList).toList := by
  rw [← signature_eq]
  exact shows_line (fillsLine_export hc) (by rw [signature_eq]; simp)

/-- Where neither the types of options nor the functions are introduced, the declarations show what
the aliases show. -/
theorem shows_after_declarationsBody (hs : s.IsWritten)
    (hstarts : ∀ i ∈ introductions, Clash i.toList [' '] ∧ Clash i.toList "interface ".toList ∧
      Clash i.toList "export function ".toList)
    (hclosing : after? introductions "\x7d".toList = none) {found : List String}
    (haliases : Shows (.after introductions h) typeAliases found) :
    Shows (.after introductions h) (declarationsBody s) found := by
  have hinterface : ∀ c ∈ s.commands, Shows (.after introductions h) (optionsInterface c) [] := by
    intro c hc
    have hread : Shows (.after introductions h) (optionsInterface c) _ :=
      shows_after_optionsInterface (hs.commands c hc) (fun i hi => (hstarts i hi).1) hclosing
    rwa [String.toList_append, after?_append_eq_none fun i hi => (hstarts i hi).2.1] at hread
  have hsignature : ∀ c ∈ s.commands, Shows (.after introductions h) [.line c.signature] [] := by
    intro c hc
    have hread : Shows (.after introductions h) [.line c.signature] _ :=
      shows_after_signature (hs.commands c hc)
    rwa [String.toList_append, after?_append_eq_none fun i hi => (hstarts i hi).2.2] at hread
  have hbody := shows_declarationsBody haliases hinterface hsignature
  rwa [List.flatMap_eq_nil_iff.2 fun _ _ => rfl, List.flatMap_eq_nil_iff.2 fun _ _ => rfl,
    List.append_nil, List.append_nil] at hbody

/-- A function is read on its first line. -/
theorem shows_after_function {signature result : String} {body : List Step}
    (hsignature : FillsLine signature) (hresult : FillsLine result)
    (hhead : signature.toList.head? ≠ some ' ') (hindent : result.toList.head? = some ' ')
    (hbody : ∀ l ∈ linesFrom 1 body, l.head? = some ' ') (hinside : levelAfter 1 body = 1)
    (hspace : ∀ i ∈ introductions, Clash i.toList [' '])
    (hclosing : after? introductions "\x7d".toList = none) :
    Shows (.after introductions h) (function signature result body)
      (after? introductions signature.toList).toList := by
  obtain ⟨hlines, hlevel⟩ := lines_function hsignature hresult hinside
  have hinner : ∀ l : List Char, l.head? = some ' ' → after? introductions l = none := by
    intro l hl
    obtain ⟨cs, rfl⟩ := List.head?_eq_some_iff.1 hl
    exact after?_append_eq_none hspace cs
  have hnone : (result.toList :: linesFrom 1 body).filterMap (after? introductions) = [] :=
    List.filterMap_eq_nil_iff.2 fun l hl => by
      obtain rfl | hl := List.mem_cons.1 hl
      · exact hinner _ hindent
      · exact hinner l (hbody l hl)
  refine ⟨hlevel, ?_, ?_⟩
  · rw [hlines]
    exact outside_cons hhead _
  · rw [hlines]
    show ([signature.toList] ++ ((result.toList :: linesFrom 1 body) ++ ["\x7d".toList])).filterMap
      (after? introductions) = _
    rw [List.filterMap_append, List.filterMap_append, hnone, filterMap_singleton,
      filterMap_singleton, hclosing]
    simp

theorem shows_after_scriptFunction (hc : c.IsWritten)
    (hspace : ∀ i ∈ introductions, Clash i.toList [' '])
    (hclosing : after? introductions "\x7d".toList = none) :
    Shows (.after introductions h) (scriptFunction c)
      (after? introductions (OptionsCode.signature c.bridgeName).toList).toList := by
  obtain ⟨hbody, hinside, -⟩ := OptionsCode.body_scriptFunction hc
  rw [OptionsCode.scriptFunction_eq]
  exact shows_after_function (OptionsCode.fillsLine_signature hc) OptionsCode.fillsLine_result
    (by simp [OptionsCode.signature]) rfl hbody hinside hspace hclosing

end After

/-! ## The registrations -/

section Registrations

variable {s : Schema}

theorem fillsLine_registrationTexts (hs : s.IsWritten) :
    ∀ text ∈ registrationTexts s, FillsLine text := by
  intro text htext
  obtain htext | htext := List.mem_append.1 htext
  · obtain ⟨c, hc, rfl⟩ := List.mem_map.1 htext
    exact fillsLine_registration (hs.commands c hc)
  · obtain rfl := List.mem_singleton.1 htext
    exact fillsLine_ofList (c := ';') (by decide) rfl (by decide)

/-- The lines of the body are indented and otherwise as they were written. -/
theorem body_registrations (hs : s.IsWritten) :
    linesFrom 1 ((registrationTexts s).map .line) = (registrationTexts s).map (lineAt 1) ∧
      levelAfter 1 ((registrationTexts s).map .line) = 1 := by
  have hfills := fillsLine_registrationTexts hs
  have hbody := linesFrom_map_line (fun text ht => (hfills text ht).1) 1 []
  have hmap : (registrationTexts s).map (fun text => indented 1 text.toList) =
      (registrationTexts s).map (lineAt 1) :=
    List.map_congr_left fun text ht => indented_of_fillsLine (hfills text ht) 1
  rw [List.append_nil, hmap, linesFrom_nil, List.append_nil] at hbody
  exact hbody

theorem fillsLine_registrationSignature :
    FillsLine registrationSignature ∧ FillsLine registrationResult :=
  ⟨fillsLine_ofList (c := ')') (by decide) rfl (by decide),
    fillsLine_ofList (c := '\x7b') (by decide) rfl (by decide)⟩

theorem shows_after_registrations {introductions : List String}
    {h : after? introductions [] = none} (hs : s.IsWritten)
    (hspace : ∀ i ∈ introductions, Clash i.toList [' '])
    (hclosing : after? introductions "\x7d".toList = none) :
    Shows (.after introductions h) (registrations s)
      (after? introductions registrationSignature.toList).toList := by
  obtain ⟨hbody, hinside⟩ := body_registrations hs
  rw [registrations_eq]
  refine shows_after_function fillsLine_registrationSignature.1 fillsLine_registrationSignature.2
    (by decide) rfl ?_ hinside hspace hclosing
  show ∀ l ∈ linesFrom 1 ((registrationTexts s).map .line), l.head? = some ' '
  rw [hbody]
  intro l hl
  obtain ⟨text, -, rfl⟩ := List.mem_map.1 hl
  exact head?_lineAt_succ ..

end Registrations

/-! ## The texts of the bodies -/

/-- What the files of a schema have in common under all configurations. -/
def bodies (s : Schema) : Artifacts where
  header := render (headerBody s)
  runHeader := render (runHeaderBody s)
  source := render (sourceBody s)
  bridge := render (bridgeBody s)
  declarations := render (declarationsBody s)

theorem lines_cons_line_ne_nil (text : String) (steps : List Step) :
    lines (.line text :: steps) ≠ [] := by
  have htext : textLines 0 text ≠ [] := by simp [textLines, pieces_ne_nil]
  rw [lines, linesFrom_cons]
  exact List.append_ne_nil_of_left_ne_nil htext _

section Parts

variable {s : Schema}

/-- A part that a view shows ends at the outermost level, also if there is nothing to take. -/
theorem levelAfter_headerBody (hs : s.IsWritten) : levelAfter 0 (headerBody s) = 0 := by
  have hrecords : levelAfter 0 (s.commands.flatMap fun c => record c ++ [.blank]) = 0 := by
    refine levelAfter_flatMap fun c hc => ?_
    have hrecord : Shows (.after [] rfl) (record c) _ :=
      shows_after_record (hs.commands c hc) nofun rfl
    rw [levelAfter_append, hrecord.level]
    rfl
  have hunion : Shows (.after [] rfl) (union s) _ := shows_after_union hs nofun rfl
  have henum : levelAfter 0 [.line "enum SortType \x7b kTime, kCost \x7d;", .blank] = 0 := rfl
  rw [headerBody, levelAfter_append, levelAfter_append, levelAfter_append, levelAfter_append,
    henum, hrecords, hunion.level]
  rfl

theorem levelAfter_runHeaderBody (s : Schema) : levelAfter 0 (runHeaderBody s) = 0 := by
  rw [runHeaderBody, levelAfter_append, List.map_eq_flatMap]
  exact levelAfter_flatMap fun _ _ => rfl

theorem levelAfter_sourceBody (hs : s.IsWritten) (hne : s.commands ≠ []) :
    levelAfter 0 (sourceBody s) = 0 := by
  obtain ⟨-, hinside, -⟩ := ArgvCode.body_argvParser hs hne
  obtain ⟨-, hlevel⟩ :=
    lines_function ArgvCode.fillsLine_signature ArgvCode.fillsLine_result hinside
  rw [sourceBody, levelAfter_append, ArgvCode.argvParser_eq]
  exact hlevel

theorem levelAfter_bridgeBody (hs : s.IsWritten) : levelAfter 0 (bridgeBody s) = 0 := by
  have hfunctions : levelAfter 0 (s.commands.flatMap fun c => scriptFunction c ++ [.blank]) = 0 :=
    OptionsCode.levelAfter_functions hs.commands
  have hregistrations : Shows (.after [] rfl) (registrations s) _ :=
    shows_after_registrations hs nofun rfl
  have hprelude : levelAfter 0 (bridgePrelude ++ [.blank]) = 0 := rfl
  have hundef : levelAfter 0
      [.line "#undef CPP_STR", .line "#undef CPP_INT", .line "#undef CPP_BOOL", .blank] = 0 := rfl
  rw [bridgeBody, levelAfter_append, levelAfter_append, levelAfter_append, levelAfter_append,
    hprelude, hfunctions, hundef, hregistrations.level]
  rfl

theorem levelAfter_declarationsBody (hs : s.IsWritten) : levelAfter 0 (declarationsBody s) = 0 := by
  have hinterfaces : levelAfter 0 ((s.commands.filter fun c => !c.fields.isEmpty).flatMap
      fun c => optionsInterface c ++ [.blank]) = 0 := by
    refine levelAfter_flatMap fun c hc => ?_
    have hinterface : Shows (.after [] rfl) (optionsInterface c) _ :=
      shows_after_optionsInterface (hs.commands c (List.mem_of_mem_filter hc)) nofun rfl
    rw [levelAfter_append, hinterface.level]
    rfl
  have haliases : levelAfter 0 (typeAliases ++ [.blank]) = 0 := rfl
  rw [declarationsBody, levelAfter_append, levelAfter_append, haliases, hinterfaces,
    List.map_eq_flatMap]
  exact levelAfter_flatMap fun _ _ => rfl

/-- Whatever the configuration is, the body of the bridge is a part of its file. -/
theorem isPart_bridge (hs : s.IsWritten) (config : Config) : ∃ front back,
    (Artifacts.ofSchema s config).bridge = front ++ (bodies s).bridge ++ back :=
  (framed_bridge s config).part (levelAfter_bridgeBody hs) (lines_cons_line_ne_nil _ _)

theorem isPart_declarations (hs : s.IsWritten) (config : Config) : ∃ front back,
    (Artifacts.ofSchema s config).declarations = front ++ (bodies s).declarations ++ back :=
  (framed_declarations s config).part (levelAfter_declarationsBody hs) (lines_cons_line_ne_nil _ _)

/-- So is every body. -/
theorem isPart_bodies (hs : s.IsWritten) (hne : s.commands ≠ []) (config : Config) :
    List.Forall₂ (fun body file => ∃ front back, file = front ++ body ++ back)
      (bodies s).texts (Artifacts.ofSchema s config).texts := by
  refine .cons ?_ (.cons ?_ (.cons ?_ (.cons ?_ (.cons ?_ .nil))))
  · exact (framed_header s config).part (levelAfter_headerBody hs) (lines_cons_line_ne_nil _ _)
  · exact (framed_runHeader s config).part (levelAfter_runHeaderBody s) (lines_cons_line_ne_nil _ _)
  · exact (framed_source s config).part (levelAfter_sourceBody hs hne) (lines_cons_line_ne_nil _ _)
  · exact isPart_bridge hs config
  · exact isPart_declarations hs config

end Parts

/-- What the texts of a header and of a source of parsers have in common with those of another
schema, they have in common for the schemas alone. -/
theorem bodies_eq_of_files_eq {s t : Schema} (hs : s.IsWritten) (ht : t.IsWritten)
    (hsne : s.commands ≠ []) (htne : t.commands ≠ []) {config : Config}
    (hheader : render (header s config) = render (header t config))
    (hsource : render (source s config) = render (source t config)) :
    (bodies s).header = (bodies t).header ∧ (bodies s).source = (bodies t).source := by
  rw [header_eq, header_eq] at hheader
  rw [source_eq, source_eq] at hsource
  have hheaders : render (headerBody s) = render (headerBody t) :=
    render_eq_of_append (levelAfter_headerOpening config) (levelAfter_headerBody hs)
      (levelAfter_headerBody ht) (lines_cons_line_ne_nil _ _) (lines_cons_line_ne_nil _ _) hheader
  have hsources : render (sourceBody s) = render (sourceBody t) :=
    render_eq_of_append rfl (levelAfter_sourceBody hs hsne) (levelAfter_sourceBody ht htne)
      (lines_cons_line_ne_nil _ _) (lines_cons_line_ne_nil _ _) hsource
  exact ⟨hheaders, hsources⟩

/-! ## The programs in the bodies -/

/-- The program in the source of the parsers. -/
theorem ArgvCode.readAs_program? {s : Schema} (hs : s.IsWritten) (hne : s.commands ≠ [])
    (config : Config) :
    ReadAs config (sourceBody s) (source s config) ArgvCode.program?
      (some ((ofSchema s).map Instruction.shown)) where
  body := by
    have hline : Lacks signature.toList (lineParser ++ [.blank]) := ⟨rfl, by decide⟩
    have hbody : program? (render (lineParser ++ [.blank] ++ argvParser s ++ [])) = _ :=
      program?_render hs hne hline
    rwa [List.append_nil] at hbody
  file hconfig := program?_source hs hne hconfig.nameSpace

/-- The programs of the functions in the bridge. -/
theorem OptionsCode.readAs_program? {s : Schema} (hs : s.IsWritten)
    (hrecords : (s.commands.map (·.recordName)).Nodup) {c : Command} (hc : c ∈ s.commands)
    (config : Config) :
    ReadAs config (bridgeBody s) (bridge s config) (program? c.bridgeName)
      (some ((ofCommand c).map Instruction.shown)) where
  body := by
    obtain ⟨before, after, hsplit⟩ := List.append_of_mem hc
    have hhead := head?_signature c.bridgeName
    have hbefore : Lacks (signature c.bridgeName).toList
        (bridgePrelude ++ [.blank] ++ functions before) :=
      ((lacks_bridgePrelude hhead).append (lacks_blank hhead)).append
        (lacks_functions hs hrecords hsplit)
    have hbody : bridgeBody s = bridgePrelude ++ [.blank] ++ functions before ++ scriptFunction c ++
        ([.blank] ++ functions after ++
          ([.line "#undef CPP_STR", .line "#undef CPP_INT", .line "#undef CPP_BOOL", .blank] ++
            registrations s ++ [.blank, .line "NODE_API_MODULE(NODE_GYP_MODULE_NAME, init)"])) := by
      simp only [bridgeBody, functions, hsplit, List.flatMap_append, List.flatMap_cons,
        List.append_assoc]
    rw [hbody]
    exact program?_render (hs.commands c hc) hbefore
  file hconfig := (program?_bridge hs hrecords hc config).2 hconfig.nameSpace

end Generated

end CommandSchema
