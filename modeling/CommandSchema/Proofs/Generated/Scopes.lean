import CommandSchema.Proofs.Generated.Blocks
import CommandSchema.Proofs.Generated.Order
import CommandSchema.Proofs.Schema.Lookup

/-!
# The names in each scope of the generated files

Every scope of the generated files declares each of its names once. The rules of schemas only say
so of records and, but for the case of one letter, of the members of a record; the other names are
derived from those.

* `Code.scopes`: the names that can be seen at the ends of the blocks of structured code.
* `Scopes`, `Scopes.ofFiles`: the names that files declare, scope by scope, read from their texts.
* `Scopes.ofSchema`: the names that the files of a schema declare.
* `Scopes.Distinct`: no scope declares a name twice.
* `scopes_distinct_of_load`: the scopes of the files of a loaded schema are distinct.
-/

namespace CommandSchema.Generated

open Layout Text

/-! ## Names among fixed ones -/

/-- Names that differ from each other and from fixed names around them. -/
theorem nodup_around {before names after : List String} (hfixed : (before ++ after).Nodup)
    (hnames : names.Nodup) (hne : ∀ name ∈ names, name ∉ before ++ after) :
    (before ++ names ++ after).Nodup := by
  have hperm : (before ++ names ++ after).Perm (names ++ (before ++ after)) := by
    rw [← List.append_assoc]
    exact List.perm_append_comm.append_right after
  rw [hperm.nodup_iff, List.nodup_append]
  refine ⟨hnames, hfixed, ?_⟩
  rintro name hname other hother rfl
  exact hne name hname hother

/-! ## Scopes of structured code -/

section Code

variable {I H T : Type} (declared : I → List String) (bound : H → List String)

mutual

/-- The names that can be seen at the end of a block and of the blocks inside of it, from those that
can be seen at its start. -/
def Code.scopes (visible : List String) : Code I H T → List (List String)
  | .done => [visible]
  | .run i next => next.scopes (visible ++ declared i)
  | .block h body next => body.scopes (visible ++ bound h) ++ next.scopes visible
  | .choose arms next => arms.scopes visible ++ next.scopes visible

@[inherit_doc Code.scopes]
def Arms.scopes (visible : List String) : Arms I H T → List (List String)
  | .otherwise body => body.scopes visible
  | .arm _ body rest => body.scopes visible ++ rest.scopes visible

end

variable {declared bound}

theorem Code.scopes_runAll (is : List I) (next : Code I H T) (visible : List String) :
    (Code.runAll is next).scopes declared bound visible =
      next.scopes declared bound (visible ++ is.flatMap declared) := by
  induction is generalizing visible with
  | nil => rw [List.flatMap_nil, List.append_nil]; rfl
  | cons i is ih =>
    rw [List.flatMap_cons, ← List.append_assoc, ← ih]
    rfl

theorem Arms.scopes_ofList (arms : List (T × Code I H T)) (otherwise : Code I H T)
    (visible : List String) :
    (Arms.ofList arms otherwise).scopes declared bound visible =
      arms.flatMap (fun a => a.2.scopes declared bound visible) ++
        otherwise.scopes declared bound visible := by
  induction arms with
  | nil => rfl
  | cons a arms ih =>
    rw [List.flatMap_cons, List.append_assoc, ← ih]
    rfl

variable {g : I → I}

mutual

/-- Instructions that declare the same names may take the place of others. -/
theorem Code.scopes_map (hg : ∀ i, declared (g i) = declared i) (visible : List String) :
    (c : Code I H T) → (c.map g).scopes declared bound visible = c.scopes declared bound visible
  | .done => rfl
  | .run i next => by
    have hnext := next.scopes_map hg (visible ++ declared i)
    simpa only [Code.map, Code.scopes, hg] using hnext
  | .block h body next => by
    have hbody := body.scopes_map hg (visible ++ bound h)
    have hnext := next.scopes_map hg visible
    simp only [Code.map, Code.scopes, hbody, hnext]
  | .choose arms next => by
    have harms := arms.scopes_map hg visible
    have hnext := next.scopes_map hg visible
    simp only [Code.map, Code.scopes, harms, hnext]

theorem Arms.scopes_map (hg : ∀ i, declared (g i) = declared i) (visible : List String) :
    (arms : Arms I H T) →
      (arms.map g).scopes declared bound visible = arms.scopes declared bound visible
  | .otherwise body => body.scopes_map hg visible
  | .arm _ body rest => by
    have hbody := body.scopes_map hg visible
    have hrest := rest.scopes_map hg visible
    simp only [Arms.map, Arms.scopes, hbody, hrest]

end

end Code

/-! ## The parser -/

namespace ArgvCode

/-- The names that an instruction declares. -/
def Instruction.declared : Instruction → List String
  | .nameCommand => ["argv0"]
  | .newRecord _ => ["res"]
  | .newLocal name => [name]
  | .nameFlag => ["arg"]
  | .nameToken => ["val"]
  | .namePieces => ["values"]
  | _ => []

/-- The names that a head declares in its block. -/
def Head.declared : Head → List String
  | .when _ => []
  | .eachArgument => ["i"]
  | .eachPiece => ["str"]

/-- The names that can be seen in the blocks of a parser, which has one parameter. -/
def scopes (program : Body) : List (List String) :=
  program.scopes Instruction.declared Head.declared ["argv"]

/-- The names that can be seen where a flag of a command is looked at. -/
def flagScope (c : Command) : List String :=
  ["argv", "argv0", "res"] ++ c.requiredFields.map seenLocal ++ ["i", "arg"]

/-- The names that are declared only for a token. -/
def tokenNames : List String := ["val", "values", "str"]

section Branch

variable {visible : List String}

theorem scopes_rejectWhen (test : Test) (next : Body) :
    (rejectWhen test next).scopes Instruction.declared Head.declared visible =
      visible :: next.scopes Instruction.declared Head.declared visible := by
  simp [rejectWhen, Code.scopes, Instruction.declared, Head.declared]

/-- Taking a token adds to what can be seen some of the names for tokens. -/
theorem scopes_supply (f : Field) :
    ∀ scope ∈ (supply f).scopes Instruction.declared Head.declared visible,
      ∃ names, names.Sublist tokenNames ∧ scope = visible ++ names := by
  -- What follows the assignment declares nothing.
  have hlast : ∀ visible : List String,
      (if f.isRequired then .run (.mark (seenLocal f)) .done else .done : Body).scopes
        Instruction.declared Head.declared visible = [visible] := by
    intro visible
    split <;> simp [Code.scopes, Instruction.declared]
  have hnone : ([] : List String).Sublist tokenNames := List.nil_sublist _
  have hval : ["val"].Sublist tokenNames := by decide
  have hvalues : ["val", "values"].Sublist tokenNames := by decide
  intro scope hscope
  rw [supply, scopes_rejectWhen, List.mem_cons] at hscope
  obtain rfl | hscope := hscope
  · exact ⟨[], hnone, (List.append_nil _).symm⟩
  unfold assignment at hscope
  split at hscope
  · split at hscope
    · rw [Code.scopes_runAll, hlast, List.mem_singleton] at hscope
      exact ⟨["val"], hval, hscope⟩
    · rw [Code.scopes_runAll, Code.scopes, hlast, List.mem_append, List.mem_singleton] at hscope
      obtain hscope | hscope := hscope
      · refine ⟨tokenNames, List.Sublist.refl _, ?_⟩
        simpa [Code.scopes, Instruction.declared, Head.declared, tokenNames] using hscope
      · exact ⟨["val", "values"], hvalues, hscope⟩
  · rw [Code.scopes, hlast, List.mem_singleton] at hscope
    exact ⟨[], hnone, hscope⟩

/-- Looking at a flag declares the argument at hand. -/
theorem scopes_flagCode (c : Command) (visible : List String) :
    visible ++ ["arg"] ∈ (flagCode c).scopes Instruction.declared Head.declared visible ∧
      ∀ scope ∈ (flagCode c).scopes Instruction.declared Head.declared visible,
        ∃ names, names.Sublist tokenNames ∧ scope = visible ++ ["arg"] ++ names := by
  have hscopes : (flagCode c).scopes Instruction.declared Head.declared visible =
      (c.fields.flatMap fun f =>
        (supply f).scopes Instruction.declared Head.declared (visible ++ ["arg"])) ++
        [visible ++ ["arg"]] ++ [visible ++ ["arg"]] := by
    rw [flagCode, Code.scopes, Code.scopes, Arms.scopes_ofList, List.flatMap_map]
    simp [Code.scopes, Instruction.declared]
  rw [hscopes]
  refine ⟨by simp, fun scope hscope => ?_⟩
  simp only [List.mem_append, List.mem_singleton, or_assoc, or_self] at hscope
  obtain hscope | rfl := hscope
  · obtain ⟨f, -, hf⟩ := List.mem_flatMap.1 hscope
    exact scopes_supply f scope hf
  · exact ⟨[], List.nil_sublist _, (List.append_nil _).symm⟩

/-- The names that can be seen once the record and the locals of a command are there. -/
def localScope (c : Command) : List String :=
  ["argv", "argv0", "res"] ++ c.requiredFields.map seenLocal

/-- What follows the locals of a command in its code. -/
theorem scopes_commandCode_of_ne_nil {c : Command} (hc : c.fields ≠ []) :
    ∃ ends, (∀ scope ∈ ends, scope = localScope c) ∧
      (commandCode c).scopes Instruction.declared Head.declared ["argv", "argv0"] =
        (flagCode c).scopes Instruction.declared Head.declared (localScope c ++ ["i"]) ++ ends := by
  have hempty : ¬ c.fields.isEmpty = true := by simpa using hc
  have hlocals : ((c.requiredFields.map seenLocal).map Instruction.newLocal).flatMap
      Instruction.declared = c.requiredFields.map seenLocal := by
    rw [List.flatMap_map]
    exact List.flatMap_singleton' _
  have hscope : ["argv", "argv0"] ++ Instruction.declared (.newRecord c.recordName) ++
      c.requiredFields.map seenLocal = localScope c := rfl
  refine ⟨(checkSeen (c.requiredFields.map seenLocal) (.run .accept .done)).scopes
    Instruction.declared Head.declared (localScope c), fun scope hm => ?_, ?_⟩
  · unfold checkSeen at hm
    split at hm
    · simpa [Code.scopes, Instruction.declared] using hm
    · simpa [scopes_rejectWhen, Code.scopes, Instruction.declared] using hm
  · rw [commandCode, if_neg hempty, Code.scopes, Code.scopes_runAll, hlocals, hscope]
    rfl

/-- The names that can be seen in the code of a command. -/
theorem scopes_commandCode (c : Command) :
    (c.fields ≠ [] → flagScope c ∈
        (commandCode c).scopes Instruction.declared Head.declared ["argv", "argv0"]) ∧
      ∀ scope ∈ (commandCode c).scopes Instruction.declared Head.declared ["argv", "argv0"],
        scope.Sublist (flagScope c ++ tokenNames) := by
  have hflag : localScope c ++ ["i"] ++ ["arg"] = flagScope c := by
    simp [localScope, flagScope]
  by_cases hc : c.fields = []
  · refine ⟨fun h => absurd hc h, fun scope hm => ?_⟩
    have hempty : c.fields.isEmpty = true := by simpa using hc
    rw [commandCode, if_pos hempty] at hm
    obtain rfl : scope = ["argv", "argv0"] := by
      simpa [Code.scopes, Instruction.declared] using hm
    exact (List.prefix_append ["argv", "argv0"] _).sublist
  · obtain ⟨ends, hends, hscopes⟩ := scopes_commandCode_of_ne_nil hc
    obtain ⟨harg, hnames⟩ := scopes_flagCode c (localScope c ++ ["i"])
    rw [hflag] at harg hnames
    rw [hscopes]
    refine ⟨fun _ => List.mem_append_left _ harg, fun scope hm => ?_⟩
    obtain hm | hm := List.mem_append.1 hm
    · obtain ⟨names, hsub, rfl⟩ := hnames scope hm
      exact hsub.append_left _
    · rw [hends scope hm, ← hflag]
      simp only [List.append_assoc]
      exact List.sublist_append_left _ _

end Branch

/-- The names that can be seen in the parser of a schema, which are those in the code of its
commands. -/
theorem scopes_ofSchema {s : Schema} (hne : s.commands ≠ []) :
    (∀ c ∈ s.commands, c.fields ≠ [] → flagScope c ∈ scopes (ofSchema s)) ∧
      ∀ scope ∈ scopes (ofSchema s), ∃ c ∈ s.commands,
        scope.Sublist (flagScope c ++ tokenNames) := by
  have hall : scopes (ofSchema s) = ["argv"] ::
      ((s.commands.flatMap fun c => (commandCode c).scopes Instruction.declared Head.declared
        ["argv", "argv0"]) ++ [["argv", "argv0"]] ++ [["argv", "argv0"]]) := by
    rw [scopes, ofSchema, scopes_rejectWhen, Code.scopes, Code.scopes, Arms.scopes_ofList,
      List.flatMap_map]
    simp [Code.scopes, Instruction.declared]
  rw [hall]
  refine ⟨fun c hc hf => ?_, fun scope hm => ?_⟩
  · have hbranch : flagScope c ∈ s.commands.flatMap fun c =>
        (commandCode c).scopes Instruction.declared Head.declared ["argv", "argv0"] :=
      List.mem_flatMap.2 ⟨c, hc, (scopes_commandCode c).1 hf⟩
    simp [hbranch]
  · obtain ⟨d, hd⟩ := List.exists_mem_of_ne_nil _ hne
    have hbase : ∀ names, names <+: ["argv", "argv0"] →
        names.Sublist (flagScope d ++ tokenNames) := fun names hn =>
      hn.sublist.trans (List.prefix_append ["argv", "argv0"] _).sublist
    simp only [List.mem_cons, List.mem_append, List.not_mem_nil, or_false, or_assoc, or_self] at hm
    obtain rfl | hm | rfl := hm
    · exact ⟨d, hd, hbase _ (by decide)⟩
    · obtain ⟨c, hc, hm⟩ := List.mem_flatMap.1 hm
      exact ⟨c, hc, (scopes_commandCode c).2 scope hm⟩
    · exact ⟨d, hd, hbase _ (List.prefix_refl _)⟩

/-- What the types of values have been read as changes nothing about the names. -/
theorem scopes_shown (s : Schema) :
    scopes ((ofSchema s).map Instruction.shown) = scopes (ofSchema s) :=
  (ofSchema s).scopes_map (fun i => by cases i <;> rfl) ["argv"]

/-- Fields of a command have locals of their own. -/
theorem nodup_locals {foreignTypes : List String} {c : Command} (h : c.KeepsRules foreignTypes) :
    (c.requiredFields.map seenLocal).Nodup := by
  have hfields : (c.fields.map seenLocal).Nodup := by
    have hmap : c.fields.map seenLocal =
        (c.fields.map fun f => capitalize f.name).map ("seen" ++ ·) := by
      rw [List.map_map]
      rfl
    rw [hmap]
    exact h.locals.map fun _ _ => (String.append_right_inj _).1
  exact hfields.sublist (List.filter_sublist.map _)

/-- All names that can be seen in the code of a command are distinct. -/
theorem nodup_flagScope {foreignTypes : List String} {c : Command}
    (h : c.KeepsRules foreignTypes) : (flagScope c ++ tokenNames).Nodup := by
  rw [flagScope, List.append_assoc]
  refine nodup_around (by decide) (nodup_locals h) fun name hname => ?_
  obtain ⟨f, -, rfl⟩ := List.mem_map.1 hname
  exact append_not_mem_of_start (by decide) _

end ArgvCode

/-! ## The scopes of the files -/

/-- The name of a member, from its declaration: it follows the type. -/
def memberName (declaration : String) : String :=
  leadingName (.ofList ((declaration.toList.dropWhile (· ≠ ' ')).drop 1))

/-- The names that the generated files declare, scope by scope. -/
structure Scopes where
  /-- The types of the header. -/
  types : List String
  /-- The members of each record. -/
  members : List (String × List String)
  /-- The records of the overloads of the handler. -/
  handlers : List String
  /-- The names that can be seen in each block of the parser of argument vectors. -/
  parser : Option (List (List String))
  /-- The functions of the bridge. -/
  functions : List String
  /-- The keys of the exports. -/
  keys : List (Option String)
  /-- The types that the declarations import. -/
  imports : List String
  /-- The types of the declarations. -/
  aliases : List String
  /-- The members of the options of each command. -/
  options : List (String × List String)
  /-- The functions that the declarations export. -/
  exports : List String

namespace Scopes

/-- The names that files declare. -/
def ofFiles (files : Artifacts) : Scopes where
  types := namesAfter ["struct ", "enum ", "using "] files.header
  members := (blocksAfter ["struct "] files.header).map fun b =>
    (leadingName b.1, b.2.map memberName)
  handlers := namesAfter ["auto run (const "] files.runHeader
  parser := (ArgvCode.program? files.source).map ArgvCode.scopes
  functions := namesAfter ["inline auto ", "auto "] files.bridge
  keys := (innerLinesAfter ["exports["] files.bridge).map exportKey?
  imports := namesAfter ["import \x7b "] files.declarations
  aliases := namesAfter ["export type ", "type ", "interface "] files.declarations
  options := (blocksAfter ["interface "] files.declarations).map fun b =>
    (leadingName b.1, b.2.map leadingName)
  exports := namesAfter ["export function "] files.declarations

/-- The names that the files of a schema declare. -/
def ofSchema (s : Schema) : Scopes where
  types := ["SortType"] ++ s.commands.map (·.recordName) ++ ["Command"]
  members := s.commands.map fun c => (c.recordName, c.fields.map (·.name))
  handlers := s.commands.map (·.recordName)
  parser := some (ArgvCode.scopes (ArgvCode.ofSchema s))
  functions := ["isNullish", "handleCommand"] ++ s.commands.map (·.bridgeName) ++ ["init"]
  keys := s.exports.map some
  imports := ["Response"]
  aliases := ["SortType", "Duration", "Numeral", "NumberSegment", "DateString", "Instant"] ++
    (s.commands.filter fun c => !c.fields.isEmpty).map (·.optionsName)
  options := (s.commands.filter fun c => !c.fields.isEmpty).map fun c =>
    (c.optionsName, c.fields.map (·.name))
  exports := s.exports

/-- No scope declares a name twice, or one that it imports. -/
structure Distinct (scopes : Scopes) : Prop where
  types : scopes.types.Nodup
  members : ∀ record ∈ scopes.members, record.2.Nodup
  handlers : scopes.handlers.Nodup
  parser : ∀ blocks ∈ scopes.parser, ∀ block ∈ blocks, block.Nodup
  functions : scopes.functions.Nodup
  keys : scopes.keys.Nodup
  aliases : (scopes.imports ++ scopes.aliases).Nodup
  options : ∀ type ∈ scopes.options, type.2.Nodup
  exports : scopes.exports.Nodup

variable {s : Schema} {foreignTypes : List String}

theorem nodup_functions (hs : s.IsLoaded foreignTypes) : (ofSchema s).functions.Nodup := by
  refine nodup_around (by decide) ?_ fun name hname => ?_
  · have hmap : s.commands.map (·.bridgeName) =
        (s.commands.map (·.recordName)).map ("node" ++ ·) := by
      rw [List.map_map]
      rfl
    rw [hmap]
    exact hs.rules.recordNames.map fun _ _ => (String.append_right_inj _).1
  · obtain ⟨c, -, rfl⟩ := List.mem_map.1 hname
    exact append_not_mem_of_start (by decide) _

theorem nodup_aliases (hs : s.IsLoaded foreignTypes) :
    ((ofSchema s).imports ++ (ofSchema s).aliases).Nodup := by
  have hoptions := nodup_optionsNames hs.rules.recordNames
  have hfixed : (["Response", "SortType", "Duration", "Numeral", "NumberSegment", "DateString",
      "Instant"] ++ []).Nodup := by decide
  have hall := nodup_around hfixed hoptions fun name hname => by
    obtain ⟨c, -, rfl⟩ := List.mem_map.1 hname
    exact append_not_mem_of_end (by decide) _
  rwa [List.append_nil] at hall

theorem distinct_ofSchema (hs : s.IsLoaded foreignTypes) : (ofSchema s).Distinct where
  types := by
    refine nodup_around (by decide) hs.rules.recordNames fun name hname hm => ?_
    obtain ⟨c, hc, rfl⟩ := List.mem_map.1 hname
    have hreserved : ["SortType"] ++ ["Command"] ⊆ reservedRecordNames := by decide
    exact hs.rules.reservedRecords c hc (hreserved hm)
  members := by
    intro record hrecord
    obtain ⟨c, hc, rfl⟩ := List.mem_map.1 hrecord
    exact (hs.rules.commands c hc).names
  handlers := hs.rules.recordNames
  parser := by
    rintro blocks ⟨rfl⟩ block hblock
    obtain ⟨c, hc, hsub⟩ := (ArgvCode.scopes_ofSchema hs.rules.nonempty).2 block hblock
    exact (ArgvCode.nodup_flagScope (hs.rules.commands c hc)).sublist hsub
  functions := nodup_functions hs
  keys := hs.exportNames.map fun _ _ => Option.some.inj
  aliases := nodup_aliases hs
  options := by
    intro type htype
    obtain ⟨c, hc, rfl⟩ := List.mem_map.1 htype
    exact (hs.rules.commands c (List.mem_of_mem_filter hc)).names
  exports := hs.exportNames

/-! ## The names read from the files -/

section Reading

variable {c : Command}

theorem leadingName_structRest (hc : c.IsWritten) : leadingName (structRest c) = c.recordName := by
  refine leadingName_append hc.isName_recordName ?_
  split <;> decide

/-- The name of a member is found behind its type, which has no space. -/
theorem memberName_declaration {f : Field} (hf : f.IsWritten) :
    memberName f.declaration = f.name := by
  obtain ⟨rest, hdeclaration, hrest⟩ := Field.declaration_eq f
  have htext : f.declaration.toList = f.cppType.toList ++ ' ' :: (f.name ++ rest).toList := by
    simp [hdeclaration]
  rw [memberName, htext, dropWhile_append_of_not_mem (Field.space_not_mem_cppType hf), List.drop_one,
    List.tail_cons, String.ofList_toList]
  exact leadingName_append hf.isName_name hrest

theorem namesAfter_types (hs : s.IsWritten) (config : Config) :
    ReadAs config (headerBody s) (header s config) (namesAfter ["struct ", "enum ", "using "])
      (ofSchema s).types := by
  have henum : Shows (.after ["struct ", "enum ", "using "] rfl)
      [.line "enum SortType \x7b kTime, kCost \x7d;"] ["SortType \x7b kTime, kCost \x7d;"] :=
    ⟨rfl, by decide, by decide⟩
  have hparsers : Shows (.after ["struct ", "enum ", "using "] rfl) parserDeclarations [] :=
    parserDeclarationsSpelling.shows rfl (by decide) (by decide)
  have hbody : Shows (.after ["struct ", "enum ", "using "] rfl) (headerBody s) _ :=
    shows_headerBody henum
      (fun c hc => shows_after_record (hs.commands c hc) (by decide) (by decide))
      (shows_after_union hs (by decide) (by decide)) hparsers
  have hunion : after? ["struct ", "enum ", "using "] "using Command = Variant<".toList =
    some "Command = Variant<" := by decide
  simp only [after?_append, hunion, Option.toList_some, List.append_nil,
    ← List.map_eq_flatMap] at hbody
  refine (framed_header s config).namesAfter (by decide) hbody ?_
  have hrecords : (s.commands.map structRest).map leadingName = s.commands.map (·.recordName) := by
    rw [List.map_map]
    exact List.map_congr_left fun c hc => leadingName_structRest (hs.commands c hc)
  have henum : leadingName "SortType \x7b kTime, kCost \x7d;" = "SortType" := by decide
  have hcommand : leadingName "Command = Variant<" = "Command" := by decide
  rw [List.map_append, List.map_append, hrecords, List.map_singleton, List.map_singleton, henum,
    hcommand]
  rfl

theorem blocksAfter_members (hs : s.IsWritten) (config : Config) :
    ReadAs config (headerBody s) (header s config)
      (fun text => (blocksAfter ["struct "] text).map fun b =>
        (leadingName b.1, b.2.map memberName)) (ofSchema s).members := by
  refine (blocksAfter_struct hs config).map (List.map _) ?_
  rw [List.map_map]
  refine List.map_congr_left fun c hc => ?_
  have hmembers : (c.fields.map (·.declaration)).map memberName = c.fields.map (·.name) := by
    rw [List.map_map]
    exact List.map_congr_left fun f hf => memberName_declaration ((hs.commands c hc).fields f hf)
  rw [Function.comp_apply, leadingName_structRest (hs.commands c hc), hmembers]

theorem namesAfter_handlers (hs : s.IsWritten) (config : Config) :
    ReadAs config (runHeaderBody s) (runHeader s config) (namesAfter ["auto run (const "])
      (ofSchema s).handlers := by
  refine (linesAfter_run hs config).map (List.map leadingName) ?_
  rw [List.map_map]
  refine List.map_congr_left fun c hc => ?_
  rw [Function.comp_apply, handlerRest]
  exact leadingName_append (hs.commands c hc).isName_recordName (by simp [isIdentifierRest])

theorem parser_program? (hs : s.IsWritten) (hne : s.commands ≠ []) (config : Config) :
    ReadAs config (sourceBody s) (source s config)
      (fun text => (ArgvCode.program? text).map ArgvCode.scopes) (ofSchema s).parser := by
  refine ReadAs.map (ArgvCode.readAs_program? hs hne config) (Option.map ArgvCode.scopes) ?_
  rw [Option.map_some, ArgvCode.scopes_shown]
  rfl

theorem namesAfter_functions (hs : s.IsWritten) (config : Config) :
    ReadAs config (bridgeBody s) (bridge s config) (namesAfter ["inline auto ", "auto "])
      (ofSchema s).functions := by
  have hprelude : Shows (.after ["inline auto ", "auto "] rfl) bridgePrelude
      ["isNullish (Napi::Value value) -> bool \x7b",
        "handleCommand (Napi::Env env, const Cmd &cmd)"] :=
    bridgePreludeSpelling.shows rfl (by decide) (by decide)
  have hundef : Shows (.after ["inline auto ", "auto "] rfl)
      [.line "#undef CPP_STR", .line "#undef CPP_INT", .line "#undef CPP_BOOL", .blank] [] :=
    ⟨rfl, by decide, by decide⟩
  have hmodule : Shows (.after ["inline auto ", "auto "] rfl)
      [.blank, .line "NODE_API_MODULE(NODE_GYP_MODULE_NAME, init)"] [] :=
    ⟨rfl, by decide, by decide⟩
  have hfunction : ∀ c ∈ s.commands, Shows (.after ["inline auto ", "auto "] rfl)
      (scriptFunction c) [c.bridgeName ++ " (const Napi::CallbackInfo &info)"] := by
    intro c hc
    have htext : OptionsCode.signature c.bridgeName =
        "auto " ++ (c.bridgeName ++ " (const Napi::CallbackInfo &info)") := by
      rw [← String.append_assoc]
      rfl
    have hfirst : ¬ "inline auto ".toList <+: (OptionsCode.signature c.bridgeName).toList := by
      rw [htext, String.toList_append]
      exact Clash.not_starts (by decide) _
    have hread : Shows (.after ["inline auto ", "auto "] rfl) (scriptFunction c) _ :=
      shows_after_scriptFunction (hs.commands c hc) (by decide) (by decide)
    rw [after?_cons hfirst, htext, after?_append] at hread
    exact hread
  have hregistrations : Shows (.after ["inline auto ", "auto "] rfl) (registrations s) _ :=
    shows_after_registrations hs (by decide) (by decide)
  have hinit : after? ["inline auto ", "auto "] registrationSignature.toList =
      some "init (Napi::Env env, Napi::Object exports)" := by decide
  rw [hinit] at hregistrations
  have hbody := shows_bridgeBody hprelude hfunction hundef hregistrations hmodule
  rw [← List.map_eq_flatMap] at hbody
  refine (framed_bridge s config).namesAfter (by decide) hbody ?_
  have hfunctions : (s.commands.map fun c => c.bridgeName ++
      " (const Napi::CallbackInfo &info)").map leadingName = s.commands.map (·.bridgeName) := by
    rw [List.map_map]
    refine List.map_congr_left fun c hc => ?_
    rw [Function.comp_apply]
    exact leadingName_append (isName_bridgeName (hs.commands c hc)) (by simp [isIdentifierRest])
  have hfixed : ["isNullish (Napi::Value value) -> bool \x7b",
      "handleCommand (Napi::Env env, const Cmd &cmd)"].map leadingName =
      ["isNullish", "handleCommand"] := by decide
  have hlast : ["init (Napi::Env env, Napi::Object exports)"].map leadingName = ["init"] := by
    decide
  rw [List.map_append, List.map_append, hfixed, hfunctions, Option.toList_some, hlast]
  rfl

theorem keys_registrations (hs : s.IsWritten) (config : Config) :
    ReadAs config (bridgeBody s) (bridge s config)
      (fun text => (innerLinesAfter ["exports["] text).map exportKey?) (ofSchema s).keys :=
  (innerLinesAfter_exports hs config).map (List.map exportKey?) (map_exportKey? s)

theorem namesAfter_aliases (hs : s.IsWritten) (config : Config) :
    ReadAs config (declarationsBody s) (declarations s config)
      (namesAfter ["export type ", "type ", "interface "]) (ofSchema s).aliases := by
  have haliases : Shows (.after ["export type ", "type ", "interface "] rfl) typeAliases
      ["SortType = 'time' | 'cost'", "Duration = number",
        "Numeral = '0' | '1' | '2' | '3' | '4' | '5' | '6' | '7' | '8' | '9'",
        "NumberSegment = `$\x7bNumeral\x7d$\x7bNumeral\x7d`",
        "DateString = `$\x7bNumberSegment\x7d-$\x7bNumberSegment\x7d`",
        "Instant = `$\x7bNumberSegment\x7d:$\x7bNumberSegment\x7d`"] :=
    typeAliasesSpelling.shows rfl (by decide) (by decide)
  have hinterface : ∀ c ∈ s.commands, Shows (.after ["export type ", "type ", "interface "] rfl)
      (optionsInterface c) [c.optionsName ++ " \x7b"] := by
    intro c hc
    have hread : Shows (.after ["export type ", "type ", "interface "] rfl) (optionsInterface c)
        _ := shows_after_optionsInterface (hs.commands c hc) (by decide) (by decide)
    have hclash : ∀ i ∈ ["export type ", "type "], ¬ i.toList <+:
        ("interface " ++ (c.optionsName ++ " \x7b")).toList := by
      intro i hi
      have hstart : ∀ i ∈ ["export type ", "type "], Clash i.toList "interface ".toList := by decide
      rw [String.toList_append]
      exact (hstart i hi).not_starts _
    rwa [after?_cons (hclash _ (by simp)), after?_cons (hclash _ (by simp)), after?_append] at hread
  have hsignature : ∀ c ∈ s.commands, Shows (.after ["export type ", "type ", "interface "] rfl)
      [.line c.signature] [] := by
    intro c hc
    have hread : Shows (.after ["export type ", "type ", "interface "] rfl) [.line c.signature] _ :=
      shows_after_signature (hs.commands c hc)
    rwa [String.toList_append, after?_append_eq_none (by decide)] at hread
  have hbody := shows_declarationsBody haliases hinterface hsignature
  have hnone : s.commands.flatMap (fun _ => ([] : List String)) = [] :=
    List.flatMap_eq_nil_iff.2 fun _ _ => rfl
  rw [hnone, List.append_nil, ← List.map_eq_flatMap] at hbody
  refine (framed_declarations s config).namesAfter (by decide) hbody ?_
  have hoptions : ((s.commands.filter fun c => !c.fields.isEmpty).map fun c =>
      c.optionsName ++ " \x7b").map leadingName =
        (s.commands.filter fun c => !c.fields.isEmpty).map (·.optionsName) := by
    rw [List.map_map]
    refine List.map_congr_left fun c hc => ?_
    have hw := hs.commands c (List.mem_of_mem_filter hc)
    rw [Function.comp_apply]
    exact leadingName_append (isName_optionsName hw) (by decide)
  rw [List.map_append, hoptions]
  exact congrArg (· ++ _) (by decide)

theorem blocksAfter_options (hs : s.IsWritten) (config : Config) :
    ReadAs config (declarationsBody s) (declarations s config)
      (fun text => (blocksAfter ["interface "] text).map fun b =>
        (leadingName b.1, b.2.map leadingName)) (ofSchema s).options := by
  refine readAs_interface hs config fun f hf => ?_
  rw [Field.memberText, String.append_assoc, String.append_assoc]
  refine leadingName_append hf.isName_name ?_
  split <;> simp [isIdentifierRest]

theorem namesAfter_exports (hs : s.IsWritten) (config : Config) :
    ReadAs config (declarationsBody s) (declarations s config) (namesAfter ["export function "])
      (ofSchema s).exports :=
  (linesAfter_export hs config).map (List.map leadingName) (map_leadingName_signatureRest hs)

/-- The import of responses is in the frame of the declarations alone. -/
theorem namesAfter_imports (hs : s.IsWritten) (config : Config) :
    namesAfter ["import \x7b "] (render (declarationsBody s)) = [] ∧
      (config.IsPlain →
        namesAfter ["import \x7b "] (render (declarations s config)) = (ofSchema s).imports) := by
  have haliases : Shows (.after ["import \x7b "] rfl) typeAliases [] :=
    typeAliasesSpelling.shows rfl (by decide) (by decide)
  have hbody := shows_after_declarationsBody hs (by decide) (by decide) haliases
  refine ⟨by rw [namesAfter, hbody.linesAfter]; rfl, fun hconfig => ?_⟩
  have hstart : Shows (.after ["import \x7b "] rfl) [disclaimer, .blank] [] :=
    ⟨rfl, by decide, by decide⟩
  have htext : importLine config =
      "import \x7b " ++ ("Response \x7d from '" ++ config.responseModule ++ "'") := by
    rw [← String.append_assoc, ← String.append_assoc]
    rfl
  have himport : Shows (.after ["import \x7b "] rfl) [.line (importLine config)] _ :=
    shows_line (fillsLine_importLine config hconfig.responseModule) (by rw [htext]; simp)
  rw [htext, after?_append, ← htext] at himport
  have hfile := ((hstart.append himport).append Shows.blank).append hbody
  rw [← declarations_eq, Option.toList_some, List.nil_append, List.append_nil,
    List.append_nil] at hfile
  have hsplit : "Response \x7d from '" ++ config.responseModule ++ "'" =
      "Response" ++ (" \x7d from '" ++ config.responseModule ++ "'") := by
    rw [← String.append_assoc, ← String.append_assoc]
    rfl
  have hname : leadingName ("Response" ++ (" \x7d from '" ++ config.responseModule ++ "'")) =
      "Response" :=
    leadingName_append (by simp [IsName, isIdentifierRest]) (by simp [isIdentifierRest])
  rw [namesAfter, hfile.linesAfter, List.map_singleton, hsplit, hname]
  rfl

/-- The names read from the bodies of the files are those of the schema, but for the import; so are
the names read from the files, if the configuration is plain. -/
theorem ofFiles_eq (hs : s.IsWritten) (hne : s.commands ≠ []) :
    ofFiles (bodies s) = { ofSchema s with imports := [] } ∧
      ∀ config : Config, config.IsPlain → ofFiles (Artifacts.ofSchema s config) = ofSchema s := by
  constructor
  · -- The readings of the bodies do not depend on the configuration.
    have hmembers := (blocksAfter_members hs {}).body
    have hparser := (parser_program? hs hne {}).body
    have hkeys := (keys_registrations hs {}).body
    have hoptions := (blocksAfter_options hs {}).body
    rw [ofFiles, Scopes.mk.injEq]
    exact ⟨(namesAfter_types hs {}).body, hmembers, (namesAfter_handlers hs {}).body, hparser,
      (namesAfter_functions hs {}).body, hkeys, (namesAfter_imports hs {}).1,
      (namesAfter_aliases hs {}).body, hoptions, (namesAfter_exports hs {}).body⟩
  · intro config hconfig
    have hmembers := (blocksAfter_members hs config).file hconfig
    have hparser := (parser_program? hs hne config).file hconfig
    have hkeys := (keys_registrations hs config).file hconfig
    have hoptions := (blocksAfter_options hs config).file hconfig
    rw [ofFiles, ofSchema, Scopes.mk.injEq]
    exact ⟨(namesAfter_types hs config).file hconfig, hmembers,
      (namesAfter_handlers hs config).file hconfig, hparser,
      (namesAfter_functions hs config).file hconfig, hkeys,
      (namesAfter_imports hs config).2 hconfig, (namesAfter_aliases hs config).file hconfig,
      hoptions, (namesAfter_exports hs config).file hconfig⟩

end Reading

end Scopes

/-- No scope of the files of a loaded schema declares a name twice. The names are read from the
parts of the files that depend on the schema alone and, where no text of the configuration breaks a
line, from the whole files. In the code of a command, all its locals can be seen together with the
fixed names around them. -/
theorem scopes_distinct_of_load {text : String} {config : Config} {s : Schema}
    (hs : Schema.load text config = .ok s) :
    (Scopes.ofSchema s).Distinct ∧
      Scopes.ofFiles (bodies s) = { Scopes.ofSchema s with imports := [] } ∧
      (∀ c ∈ s.commands, c.fields ≠ [] →
        ∃ blocks, (Scopes.ofSchema s).parser = some blocks ∧ ArgvCode.flagScope c ∈ blocks) ∧
      ∀ emission : Config,
        List.Forall₂ (fun body file => ∃ front back, file = front ++ body ++ back)
          (bodies s).texts (Artifacts.ofSchema s emission).texts ∧
        (emission.IsPlain →
          Scopes.ofFiles (Artifacts.ofSchema s emission) = Scopes.ofSchema s) := by
  have hl := Schema.isLoaded_of_load hs
  obtain ⟨hbodies, hfiles⟩ := Scopes.ofFiles_eq hl.written hl.rules.nonempty
  have hflags := (ArgvCode.scopes_ofSchema hl.rules.nonempty).1
  exact ⟨Scopes.distinct_ofSchema hl, hbodies, fun c hc hf => ⟨_, rfl, hflags c hc hf⟩,
    fun emission => ⟨isPart_bodies hl.written hl.rules.nonempty emission, hfiles emission⟩⟩

/-- Names that underscores and digits keep apart, and a member that is called as a local could be. -/
theorem scopes_distinct_of_load_add_user :
    let add : Command := ⟨"__add_2user", [⟨"-u", "user", .string, false, false, none⟩,
      ⟨"-d", "seenUser", .int, false, true, none⟩]⟩
    let remove : Command := ⟨"add2_user", [⟨"-u", "user", .string, true, false, none⟩]⟩
    let scopes := Scopes.ofFiles (Artifacts.ofSchema ⟨[add, remove]⟩ {})
    Schema.load ("__add_2user:\n  -u: string user\n  -d: int seenUser[]\n" ++
        "add2_user:\n  -u: string user?\n") {} = .ok ⟨[add, remove]⟩ ∧
      scopes.types = ["SortType", "Add2user", "Add2User", "Command"] ∧
      scopes.members = [("Add2user", ["user", "seenUser"]), ("Add2User", ["user"])] ∧
      scopes.functions =
        ["isNullish", "handleCommand", "nodeAdd2user", "nodeAdd2User", "init"] ∧
      scopes.exports = ["add2user", "add2User"] ∧
      (∃ blocks, scopes.parser = some blocks ∧
        ["argv", "argv0", "res", "seenUser", "seenSeenUser", "i", "arg"] ∈ blocks) ∧
      scopes.Distinct := by
  intro add remove scopes
  have hload : Schema.load ("__add_2user:\n  -u: string user\n  -d: int seenUser[]\n" ++
      "add2_user:\n  -u: string user?\n") {} = .ok ⟨[add, remove]⟩ :=
    Schema.load_of_toOption (by decide +kernel)
  obtain ⟨hdistinct, -, hflags, hfiles⟩ := scopes_distinct_of_load hload
  have hread : scopes = Scopes.ofSchema ⟨[add, remove]⟩ :=
    (hfiles {}).2 (Config.isPlain_default _)
  have hflag := hflags add (by simp) (by simp [add])
  have hscope : ArgvCode.flagScope add =
      ["argv", "argv0", "res", "seenUser", "seenSeenUser", "i", "arg"] := by decide +kernel
  rw [hscope] at hflag
  rw [hread]
  exact ⟨hload, by decide +kernel, by decide +kernel, by decide +kernel, by decide +kernel, hflag,
    hdistinct⟩

end CommandSchema.Generated
