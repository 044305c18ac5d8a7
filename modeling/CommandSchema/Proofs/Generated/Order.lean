import CommandSchema.Proofs.Generated.ArgvText
import CommandSchema.Proofs.Generated.Bodies

/-!
# The order of the commands in the generated files

Each file lists the commands, in lines of one form that occur for nothing else, and all of them keep
the order of the schema.

* `ListsCommands`: the lines that list the commands.
* `testStarts`, `after?_testStarts`, `after?_instruction`: how the lines of the parser start that
  compare an operand, and that no instruction starts so.
* `branch?`, `branch?_command`, `branch?_of_isOf`: the lines of the parser that pick a command, and
  all other lines of its code.
* `listsCommands_of_load`: the files of a loaded schema list its commands.
-/

namespace CommandSchema.Generated

open Layout Text

/-! ## Statement -/

/-- The name of the function in the registration of an export, from the text after its
introduction. -/
def exportKey? (rest : String) : Option String :=
  match rest.toList with
  | '\x22' :: cs => (unquote? cs).map fun key => .ofList key.1
  | _ => none

/-- The lines of one form in each file are one line for each command, in the order of the
schema. -/
structure ListsCommands (s : Schema) (files : Artifacts) : Prop where
  structs : linesAfter ["struct "] files.header =
    s.commands.map fun c => c.recordName ++ if c.fields.isEmpty then " \x7b\x7d;" else " \x7b"
  /-- Every name but the last one has a comma. -/
  alternatives : linesBetween "using Command = Variant<" ">;" files.header =
    (s.commands.map (·.recordName)).dropLast.map (· ++ ",") ++
      (s.commands.map (·.recordName)).getLast?.toList
  handlers : linesAfter ["auto run (const "] files.runHeader =
    s.commands.map fun c => c.recordName ++ " &cmd) -> Result<Response, Exception>;"
  branches : innerLinesAfter ["if (argv0 == ", "\x7d else if (argv0 == "] files.source =
    s.commands.map fun c => quote c.name ++ ") \x7b"
  registrations : innerLinesAfter ["exports["] files.bridge =
    s.commands.map fun c =>
      quote c.exportName ++ "] = Napi::Function::New(env, " ++ c.bridgeName ++ ");"
  signatures : linesAfter ["export function "] files.declarations =
    s.commands.map fun c =>
      c.exportName ++ " (" ++ (if c.fields.isEmpty then "" else "options: " ++ c.optionsName) ++
        "): Response"
  keys : (innerLinesAfter ["exports["] files.bridge).map exportKey? = s.exports.map some
  names : namesAfter ["export function "] files.declarations = s.exports

variable {s : Schema} {config : Config}

/-! ## Lines between two others -/

/-- A line without blanks is found again behind its indentation. -/
theorem dropIndent_indented {cs : List Char} (h : ∀ c ∈ cs, isBlank c = false) (level : Nat) :
    dropIndent (indented level cs) = cs := by
  obtain rfl | ⟨front, last, rfl⟩ := List.eq_nil_or_concat cs
  · have hblank : ∀ c ∈ indented level [], (c == ' ') = true := by
      intro c hc
      have hc := mem_of_mem_trimEnd hc
      rw [List.append_nil] at hc
      simp [List.eq_of_mem_replicate hc]
    exact List.dropWhile_eq_nil_iff.2 hblank
  · have hlast : isBlank last = false := h last (by simp)
    have hhead : (front.concat last).head?.any (· ≠ ' ') = true := by
      cases hs : front.concat last with
      | nil => simp at hs
      | cons c rest =>
        have hc := h c (by rw [hs]; exact List.mem_cons_self)
        have hne : c ≠ ' ' := by
          rintro rfl
          exact absurd hc (by decide)
        simpa using hne
    have hself := dropIndent_append hhead []
    rw [List.append_nil] at hself
    rw [indented, List.concat_eq_append, ← List.append_assoc, trimEnd_append_singleton hlast,
      List.append_assoc, ← List.concat_eq_append, dropIndent_replicate, hself]

/-- The lines of a block that starts with a line that does not occur before. -/
theorem linesBetween_render {opening closing : String} {items : List String}
    {before after : List Step} (hopening : FillsLine opening)
    (hitems : ∀ item ∈ items, ∀ c ∈ item.toList, isBlank c = false)
    (hclosing : FillsLine closing) (hhead : closing.toList.head?.any (· ≠ ' ') = true)
    (hlevel : levelAfter 0 before = 0) (hbefore : opening.toList ∉ lines before) :
    linesBetween opening closing (render (before ++ block opening items closing ++ after)) =
      items := by
  have hfit : ∀ item ∈ items, '\n' ∉ item.toList :=
    fun item hi hn => absurd (hitems item hi _ hn) (by decide)
  obtain ⟨hblock, hafter⟩ := lines_block hopening hfit hclosing
  have hlines : lines (before ++ block opening items closing ++ after) =
      lines before ++ opening.toList :: (items.map (fun item => indented 1 item.toList) ++
        closing.toList :: lines after) := by
    rw [lines_append (by rw [levelAfter_append, hlevel, hafter]), lines_append hlevel, hblock]
    simp
  have hinner : closing.toList ∉ items.map fun item => indented 1 item.toList := by
    intro hm
    obtain ⟨item, hitem, he⟩ := List.mem_map.1 hm
    obtain ⟨c, cs, hcs, hc⟩ := exists_cons_of_head hhead
    obtain ⟨rest, hrest⟩ := isPrefix_trimEnd (List.replicate (2 * 1) ' ' ++ item.toList)
    have hspace : c :: (cs ++ rest) = ' ' :: (' ' :: item.toList) := by
      rw [← List.cons_append, ← hcs, ← he]
      exact hrest
    exact hc (List.cons.inj hspace).1
  have hnames : (items.map fun item => indented 1 item.toList).map
      (fun l => String.ofList (dropIndent l)) = items := by
    rw [List.map_map]
    refine (List.map_congr_left fun item hi => ?_).trans (List.map_id items)
    show String.ofList (dropIndent (indented 1 item.toList)) = item
    rw [dropIndent_indented (hitems item hi), String.ofList_toList]
  rw [linesBetween, pieces_render (by rw [hlines]; simp), hlines, List.append_assoc,
    List.cons_append, dropWhile_append_of_not_mem hbefore, List.drop_one, List.tail_cons,
    List.append_assoc, List.cons_append, takeWhile_append_of_not_mem hinner, hnames]

/-! ## The header -/

section Header

theorem linesAfter_struct (hs : s.IsWritten) (config : Config) :
    ReadAs config (headerBody s) (header s config) (linesAfter ["struct "])
      (s.commands.map structRest) := by
  have henum : Shows (.after ["struct "] rfl) [.line "enum SortType \x7b kTime, kCost \x7d;"] [] :=
    ⟨rfl, by decide, by decide⟩
  have hparsers : Shows (.after ["struct "] rfl) parserDeclarations [] :=
    parserDeclarationsSpelling.shows rfl (by decide) (by decide)
  have hbody : Shows (.after ["struct "] rfl) (headerBody s) _ :=
    shows_headerBody henum
      (fun c hc => shows_after_record (hs.commands c hc) (by decide) (by decide))
      (shows_after_union hs (by decide) (by decide)) hparsers
  have hunion : after? ["struct "] "using Command = Variant<".toList = none := by decide
  simp only [after?_append, hunion, Option.toList_some, Option.toList_none, List.append_nil,
    List.nil_append, ← List.map_eq_flatMap] at hbody
  exact (framed_header s config).linesAfter (by decide) hbody

/-- The alternatives of the union are found between its first line and its last one. -/
theorem linesBetween_union (hs : s.IsWritten) (hconfig : config.IsPlain) :
    linesBetween "using Command = Variant<" ">;" (render (header s config)) =
      withCommas (s.commands.map (·.recordName)) := by
  obtain ⟨opening, ending, hfile, -, hframe⟩ := framed_header s config
  -- Before the union, no line is its first one.
  have hopening : Shows (.after ["using Command = Variant<"] rfl) opening [] :=
    (hframe hconfig).1.shows (View.ignores_after (by decide)) head_frameStarts
  have henum : Shows (.after ["using Command = Variant<"] rfl)
      [.line "enum SortType \x7b kTime, kCost \x7d;", .blank] [] :=
    ⟨rfl, by decide, by decide⟩
  have hrecord : ∀ c ∈ s.commands,
      Shows (.after ["using Command = Variant<"] rfl) (record c ++ [.blank]) [] := by
    intro c hc
    have hline : after? ["using Command = Variant<"] ("struct " ++ structRest c).toList = none := by
      rw [String.toList_append]
      exact after?_append_eq_none (by decide) _
    have hrecord : Shows (.after ["using Command = Variant<"] rfl) (record c) _ :=
      shows_after_record (hs.commands c hc) (by decide) (by decide)
    rw [hline] at hrecord
    exact hrecord.append Shows.blank
  have hbefore := (hopening.append henum).append (Shows.flatMap hrecord)
  rw [List.flatMap_eq_nil_iff.2 fun _ _ => rfl] at hbefore
  have hsplit : header s config =
      opening ++ [.line "enum SortType \x7b kTime, kCost \x7d;", .blank] ++
        (s.commands.flatMap fun c => record c ++ [.blank]) ++
        block "using Command = Variant<" (withCommas (s.commands.map (·.recordName))) ">;" ++
        ([.blank] ++ parserDeclarations ++ ending) := by
    rw [hfile, headerBody, ← union_eq]
    simp only [List.append_assoc]
  rw [hsplit]
  exact linesBetween_render (fillsLine_of_getLast? (c := '<') (by decide) rfl (by decide))
    (isBlank_of_mem_union hs) (fillsLine_of_getLast? (c := ';') (by decide) rfl (by decide))
    (by decide) hbefore.level (hbefore.not_mem (by decide))

end Header

/-! ## The handlers and the declarations -/

/-- What follows the introduction of a handler. -/
def handlerRest (c : Command) : String :=
  c.recordName ++ " &cmd) -> Result<Response, Exception>;"

theorem shows_handler {c : Command} (hc : c.IsWritten) :
    Shows (.after ["auto run (const "] rfl) [handler c] [handlerRest c] := by
  have htext : handler c = .line ("auto run (const " ++ handlerRest c) := by
    unfold handler handlerRest
    rw [String.append_assoc]
  have hname : '\n' ∉ c.recordName.toList := hc.isName_recordName.not_mem (by decide)
  have hfills : FillsLine ("auto run (const " ++ handlerRest c) :=
    fillsLine_of_getLast? (c := ';') (by simp [handlerRest, hname])
      (getLast?_toList_append _ (getLast?_toList_append _ (by decide))) (by decide)
  have hline : Shows (.after ["auto run (const "] rfl) [.line ("auto run (const " ++ handlerRest c)]
      _ := shows_line hfills (by simp)
  rw [after?_append] at hline
  rw [htext]
  exact hline

theorem linesAfter_run (hs : s.IsWritten) (config : Config) :
    ReadAs config (runHeaderBody s) (runHeader s config) (linesAfter ["auto run (const "])
      (s.commands.map handlerRest) := by
  have hcomment : Shows (.after ["auto run (const "] rfl) handlerComment [] :=
    handlerCommentSpelling.shows rfl (by decide) (by decide)
  have hhandlers := Shows.flatMap_singleton fun c hc => shows_handler (hs.commands c hc)
  rw [← List.map_eq_flatMap] at hhandlers
  exact (framed_runHeader s config).linesAfter (by decide) (hcomment.append hhandlers)

theorem linesAfter_export (hs : s.IsWritten) (config : Config) :
    ReadAs config (declarationsBody s) (declarations s config) (linesAfter ["export function "])
      (s.commands.map signatureRest) := by
  have hinterface : ∀ c ∈ s.commands,
      Shows (.after ["export function "] rfl) (optionsInterface c) [] := by
    intro c hc
    have hline : after? ["export function "]
        ("interface " ++ (c.optionsName ++ " \x7b")).toList = none := by
      rw [String.toList_append]
      exact after?_append_eq_none (by decide) _
    have hblock : Shows (.after ["export function "] rfl) (optionsInterface c) _ :=
      shows_after_optionsInterface (hs.commands c hc) (by decide) (by decide)
    rw [hline] at hblock
    exact hblock
  have haliases : Shows (.after ["export function "] rfl) typeAliases [] :=
    typeAliasesSpelling.shows rfl (by decide) (by decide)
  have hbody : Shows (.after ["export function "] rfl) (declarationsBody s) _ :=
    shows_declarationsBody haliases hinterface fun c hc => shows_after_signature (hs.commands c hc)
  simp only [after?_append, Option.toList_some, ← List.map_eq_flatMap, List.nil_append,
    List.flatMap_eq_nil_iff.2 fun (_ : Command) _ => (rfl : ([] : List String) = [])] at hbody
  exact (framed_declarations s config).linesAfter (by decide) hbody

/-! ## The parser -/

section Parser

open ArgvCode

/-- What a test is introduced with: it starts a chain or goes on with it. -/
def testLeads : List String := ["if (", "\x7d else if ("]

/-- The ways in which a line starts that compares an operand. -/
def testStarts (operand : String) : List String := testLeads.map (· ++ (operand ++ " == "))

theorem head_testLeads : ∀ lead ∈ testLeads, lead.toList.head?.any (· ≠ ' ') = true := by
  decide

theorem clash_of_testLeads : ∀ a ∈ testLeads, ∀ b ∈ testLeads, a ≠ b → Clash a.toList b.toList := by
  decide

theorem after?_testStarts {lead : String} (hlead : lead ∈ testLeads) (operand rest : String) :
    after? (testStarts operand) (dropIndent (lead ++ (operand ++ " == ") ++ rest).toList) =
      some rest := by
  have hindent : dropIndent (lead ++ (operand ++ " == ") ++ rest).toList =
      (lead ++ (operand ++ " == ") ++ rest).toList := by
    rw [String.toList_append, String.toList_append, List.append_assoc]
    exact dropIndent_append (head_testLeads lead hlead) _
  rw [hindent, testStarts, testLeads, List.map_cons, List.map_singleton]
  by_cases hfirst : lead = "if ("
  · rw [hfirst]
    exact after?_append rest
  · obtain rfl : lead = "\x7d else if (" := by simpa [testLeads, hfirst] using hlead
    have hclash : Clash "if (".toList "\x7d else if (".toList := by decide
    rw [after?_cons fun h => ?_]
    · exact after?_append rest
    · simp only [String.toList_append, List.append_assoc] at h
      exact hclash.not_starts _ ((List.prefix_append ..).trans h)

/-- A test of something else is introduced otherwise. -/
theorem after?_testStarts_eq_none {lead operand start : String} (hlead : lead ∈ testLeads)
    (hclash : Clash (operand ++ " == ").toList start.toList) (rest : List Char) :
    after? (testStarts operand) (dropIndent (lead.toList ++ (start.toList ++ rest))) = none := by
  rw [dropIndent_append (head_testLeads lead hlead), testStarts]
  refine after?_eq_none fun i hi h => ?_
  obtain ⟨other, hother, rfl⟩ := List.mem_map.1 hi
  rw [String.toList_append] at h
  by_cases he : other = lead
  · rw [he, List.prefix_append_right_inj] at h
    exact hclash.not_starts rest h
  · exact (clash_of_testLeads other hother lead hlead he).not_starts _
      ((List.prefix_append _ _).trans h)

/-- What the instructions of the parser start with, unless they are too short for a test. -/
def instructionStarts : List String := ["return", "bool ", "res.", "auto ", "std::"]

/-- No instruction of the parser is introduced as a test. -/
theorem after?_instruction {introductions : List String}
    (hclash : ∀ start ∈ instructionStarts, ∀ i ∈ introductions, Clash i.toList start.toList)
    (hparen : ∀ i ∈ introductions, '(' ∈ i.toList) {i : Instruction} (hi : i.IsNamed) :
    after? introductions (dropIndent i.text.toList) = none := by
  have hhead : ∀ start ∈ instructionStarts, start.toList.head?.any (· ≠ ' ') = true := by decide
  have hstart (start rest : String) (hm : start ∈ instructionStarts)
      (htext : i.text = start ++ rest) :
      after? introductions (dropIndent i.text.toList) = none := by
    rw [htext, String.toList_append]
    exact after?_dropIndent_eq_none (hhead start hm) (hclash start hm) _
  have hshort (hm : '(' ∉ i.text.toList) :
      after? introductions (dropIndent i.text.toList) = none :=
    after?_dropIndent_of_not_mem hm hparen
  have hname {name : String} (hn : IsName name) : '(' ∉ name.toList := hn.not_mem (by decide)
  cases i with
  | reject => exact hstart "return" " ParseException();" (by decide) rfl
  | accept => exact hstart "return" " Command(res);" (by decide) rfl
  | nameCommand => exact hstart "auto " "&argv0 = argv[0];" (by decide) rfl
  | nameFlag => exact hstart "auto " "&arg = argv[i];" (by decide) rfl
  | nameToken => exact hstart "std::" "string val = argv[i].data();" (by decide) rfl
  | namePieces => exact hstart "auto " "values = split(val, '|');" (by decide) rfl
  | newRecord name | mark name => exact hshort (by simp [hname hi.1])
  | newLocal name =>
    refine hstart "bool " (name ++ " = false;") (by decide) ?_
    rw [Instruction.text_newLocal, String.append_assoc]
  | acceptNew name =>
    refine hstart "return" (" Command(" ++ name ++ "());") (by decide) ?_
    rw [Instruction.text_acceptNew, ← String.append_assoc, ← String.append_assoc]
    rfl
  | assign name type =>
    refine hstart "res." (name ++ (" = " ++ (type.ofTokenText argumentText ++ ";"))) (by decide) ?_
    rw [Instruction.text_assign]
    simp only [String.append_assoc]
  | assignPieces name =>
    refine hstart "res." (name ++ (" = copyStrings(" ++ (piecesText ++ ");"))) (by decide) ?_
    rw [Instruction.text_assignPieces]
    simp only [String.append_assoc]
  | clear name =>
    refine hstart "res." (name ++ ".clear();") (by decide) ?_
    rw [Instruction.text_clear, String.append_assoc]
  | reserve name =>
    refine hstart "res." (name ++ ".reserve(values.size());") (by decide) ?_
    rw [Instruction.text_reserve, String.append_assoc]
  | append name type =>
    refine hstart "res." (name ++ (".push_back(" ++ (type.ofTokenText "str.data()" ++ ");")))
      (by decide) ?_
    rw [Instruction.text_append]
    simp only [String.append_assoc]

/-- What a line of the parser that picks a command goes on with. -/
def branch? (m : Mark Instruction Head Test) : Option String :=
  after? ["if (argv0 == ", "\x7d else if (argv0 == "] (dropIndent (m.text writing).toList)

theorem branch?_eq (m : Mark Instruction Head Test) :
    branch? m = after? (testStarts "argv0") (dropIndent (m.text writing).toList) := by
  have hstarts : testStarts "argv0" = ["if (argv0 == ", "\x7d else if (argv0 == "] := by decide
  rw [branch?, hstarts]

/-- Picking a command is such a line, whether it starts the chain or goes on with it. -/
theorem branch?_command (name : String) :
    branch? (.opening (.when (.command name))) = some (quote name ++ ") \x7b") ∧
      branch? (.arm (.command name)) = some (quote name ++ ") \x7b") := by
  have hlead : ∀ lead ∈ testLeads, ∀ m : Mark Instruction Head Test,
      m.text writing = lead ++ ("argv0 == " ++ quote name) ++ ") \x7b" →
        branch? m = some (quote name ++ ") \x7b") := by
    intro lead hlead m hm
    have htext : m.text writing = lead ++ ("argv0" ++ " == ") ++ (quote name ++ ") \x7b") := by
      rw [hm, ← String.append_assoc, ← String.append_assoc]
      rfl
    rw [branch?_eq, htext, after?_testStarts hlead]
  exact ⟨hlead "if (" (by simp [testLeads]) _ rfl,
    hlead "\x7d else if (" (by simp [testLeads]) _ rfl⟩

/-- A test in the code of a command does not look at the name of the command. -/
theorem exists_start_of_isOf {c : Command} {t : Test} (ht : t.IsOf c) :
    ∃ start ∈ ["arg ", "++i", "!"], ∃ rest, t.text.toList = start.toList ++ rest := by
  cases t with
  | noArguments | command name => exact ht.elim
  | flag name =>
    refine ⟨"arg ", by simp, ("== " ++ quote name).toList, ?_⟩
    show ("arg == " ++ quote name).toList = _
    simp
  | nextIsMissing => exact ⟨"++i", by simp, " >= argv.size()".toList, by decide⟩
  | anyUnseen locals =>
    obtain ⟨cs, hcs⟩ := exists_cons_anyUnseen ht.1
    exact ⟨"!", by simp, cs, hcs⟩

/-- No line of the code of a command picks a command. -/
theorem branch?_of_isOf {c : Command} (hc : c.IsWritten) {m : Mark Instruction Head Test}
    (hm : markIsOf c m) : branch? m = none := by
  have htest : ∀ lead ∈ testLeads, ∀ t : Test, t.IsOf c → ∀ m : Mark Instruction Head Test,
      m.text writing = lead ++ t.text ++ ") \x7b" → branch? m = none := by
    intro lead hlead t ht m hm
    obtain ⟨start, hstart, rest, hrest⟩ := exists_start_of_isOf ht
    have hclash : ∀ start ∈ ["arg ", "++i", "!"],
        Clash ("argv0" ++ " == ").toList start.toList := by decide
    have htext : (m.text writing).toList =
        lead.toList ++ (start.toList ++ (rest ++ ") \x7b".toList)) := by
      rw [hm, String.toList_append, String.toList_append, hrest]
      simp only [List.append_assoc]
    rw [branch?_eq, htext]
    exact after?_testStarts_eq_none hlead (hclash start hstart) _
  cases m with
  | instruction i =>
    exact after?_instruction (by decide) (by decide) (isNamed_of_isOf hc hm)
  | otherwise | closing => decide
  | opening head =>
    cases head with
    | eachArgument | eachPiece => decide
    | when t => exact htest "if (" (by simp [testLeads]) t hm _ rfl
  | arm t => exact htest "\x7d else if (" (by simp [testLeads]) t hm _ rfl

/-- What is taken from the lines of the parser is one entry for each command, wherever its test
stands, and after it what is taken from the code of the command, if the lines around the chain give
nothing. -/
theorem filterMap_marks_ofSchema {α : Type} {take? : Mark Instruction Head Test → Option α}
    {entry : Command → α} {inner : Command → List α}
    (hfirst : ∀ c ∈ s.commands, take? (.opening (.when (.command c.name))) = some (entry c))
    (harm : ∀ c ∈ s.commands, take? (.arm (.command c.name)) = some (entry c))
    (hbody : ∀ c ∈ s.commands, ((commandCode c).marks grammar).filterMap take? = inner c)
    (hstart : ∀ m ∈ [.opening (.when .noArguments), .instruction .reject, .closing,
      .instruction .nameCommand], take? m = none)
    (hlast : ∀ m ∈ (Arms.otherwise (.run .reject .done)).marks grammar false, take? m = none) :
    ((ofSchema s).marks grammar).filterMap take? =
      s.commands.flatMap fun c => entry c :: inner c := by
  have harms := Arms.flatMap_marks_ofList (G := grammar) hfirst harm hbody hlast true
  have hmarks : (ofSchema s).marks grammar =
      [.opening (.when .noArguments), .instruction .reject, .closing, .instruction .nameCommand] ++
        (Arms.ofList (s.commands.map fun c => (.command c.name, commandCode c))
          (.run .reject .done)).marks grammar true := by
    simp only [ofSchema, rejectWhen, Code.marks, List.append_nil, List.cons_append, List.nil_append]
  rw [hmarks, List.filterMap_append, List.filterMap_eq_nil_iff.2 hstart, List.nil_append, harms]

/-- The lines of the parser that pick a command. -/
theorem filterMap_branch? (hs : s.IsWritten) :
    ((ofSchema s).marks grammar).filterMap branch? =
      s.commands.map fun c => quote c.name ++ ") \x7b" := by
  have hbody : ∀ c ∈ s.commands, ((commandCode c).marks grammar).filterMap branch? = [] :=
    fun c hc => List.filterMap_eq_nil_iff.2 fun m hm => branch?_of_isOf (hs.commands c hc)
      ((allMarks_commandCode c).forall_mem trivial trivial m hm)
  rw [List.map_eq_flatMap]
  exact filterMap_marks_ofSchema (fun c _ => (branch?_command c.name).1)
    (fun c _ => (branch?_command c.name).2) hbody (by decide) (by decide)

theorem innerLinesAfter_if (hs : s.IsWritten) (hne : s.commands ≠ []) (config : Config) :
    ReadAs config (sourceBody s) (source s config)
      (innerLinesAfter ["if (argv0 == ", "\x7d else if (argv0 == "])
      (s.commands.map fun c => quote c.name ++ ") \x7b") := by
  have hline : Shows (.innerAfter ["if (argv0 == ", "\x7d else if (argv0 == "] rfl)
      (lineParser ++ [.blank]) [] := ⟨rfl, by decide, by decide⟩
  have hcode : (ofSchema s).AllMarks grammar fun m => FillsLine (m.text writing) :=
    (allMarks_ofSchema hs hne).imp fun _ h => (reads_of_isNamed h).1
  have hargv : Shows (.innerAfter ["if (argv0 == ", "\x7d else if (argv0 == "] rfl)
      (function signature result ((ofSchema s).steps writing)) _ :=
    shows_function fillsLine_signature fillsLine_result (by decide) (by decide)
      (by decide) (by decide) hcode fun _ => rfl
  rw [← argvParser_eq] at hargv
  have hfound := hline.append hargv
  have hbranches := filterMap_branch? hs
  unfold branch? at hbranches
  rw [hbranches, List.nil_append] at hfound
  exact (framed_source s config).innerLinesAfter (by decide) hfound

end Parser

/-! ## The bridge -/

section Bridge

open OptionsCode

/-- No line of a script function starts as a registration does. -/
theorem after?_exports_of_isNamed {m : Mark Instruction Head Empty} (hm : markIsNamed m) :
    after? ["exports["] (dropIndent (m.text writing).toList) = none := by
  have hclosed : ∀ start ∈ ["cmd", "if (!isNullish(", "auto array = "],
      start.toList.head?.any (· ≠ ' ') = true ∧
        ∀ i ∈ ["exports["], Clash i.toList start.toList := by decide
  have hstart (start : String) {text : String} (rest : List Char)
      (hm : start ∈ ["cmd", "if (!isNullish(", "auto array = "])
      (htext : text.toList = start.toList ++ rest) :
      after? ["exports["] (dropIndent text.toList) = none := by
    rw [htext]
    exact after?_dropIndent_eq_none (hclosed start hm).1 (hclosed start hm).2 rest
  cases m with
  | otherwise | closing => decide
  | arm t => cases t
  | opening head =>
    cases head with
    | always | eachElement => decide
    | present member => exact hstart _ _ (by simp) (toList_present member)
  | instruction i =>
    show after? ["exports["] (dropIndent i.text.toList) = none
    cases i with
    | nameOptions | answer => decide
    | newRecord name =>
      have hname : '[' ∉ name.toList := IsName.not_mem hm.1 (by decide)
      refine after?_dropIndent_of_not_mem (c := '[') ?_ (by decide)
      rw [Instruction.text_newRecord]
      simp [hname]
    | assign name type =>
      obtain ⟨tail, htext, -⟩ := resultInstruction?_assign hm type
      exact hstart _ _ (by simp) htext
    | assignPresent name type =>
      refine hstart "if (!isNullish("
        (optionText name ++ ")) " ++ (Instruction.assign name type).text).toList (by simp) ?_
      rw [Instruction.text_assignPresent]
      simp only [String.toList_append, List.append_assoc]
    | nameArray name =>
      refine hstart "auto array = " (optionText name ++ ".As<Napi::Array>();").toList
        (by simp) ?_
      rw [Instruction.text_nameArray]
      simp only [String.toList_append, List.append_assoc]
    | reserve name =>
      refine hstart "cmd" ("." ++ name ++ ".reserve(array.Length());").toList (by simp) ?_
      rw [Instruction.text_reserve]
      simp
    | append name type =>
      refine hstart "cmd" ("." ++ name ++ (".push_back(" ++
        type.ofDynamicText "array.Get(i)" ++ ");")).toList (by simp) ?_
      rw [Instruction.text_append]
      simp

theorem shows_exports_scriptFunction {c : Command} (hc : c.IsWritten) :
    Shows (.innerAfter ["exports["] rfl) (scriptFunction c) [] := by
  have hcode : (ofCommand c).AllMarks grammar fun m => FillsLine (m.text writing) :=
    (allMarks_ofCommand hc).imp fun _ h => (reads_of_isNamed h).1
  have hsignature : after? ["exports["] (dropIndent (signature c.bridgeName).toList) = none := by
    have htext : signature c.bridgeName =
        "auto " ++ (c.bridgeName ++ " (const Napi::CallbackInfo &info)") := by
      rw [← String.append_assoc]
      rfl
    rw [htext, String.toList_append]
    exact after?_dropIndent_eq_none (by decide) (by decide) _
  have hfunction : Shows (.innerAfter ["exports["] rfl)
      (function (signature c.bridgeName) result ((ofCommand c).steps writing)) _ :=
    shows_function (fillsLine_signature hc) fillsLine_result (by simp [signature]) hsignature
      (by decide) (by decide) hcode (·.elim)
  have hnone : ((ofCommand c).marks grammar).filterMap
      (fun m => after? ["exports["] (dropIndent (m.text writing).toList)) = [] :=
    List.filterMap_eq_nil_iff.2 fun m hm => after?_exports_of_isNamed
      ((allMarks_ofCommand hc).forall_mem trivial trivial m hm)
  rw [hnone, ← scriptFunction_eq] at hfunction
  exact hfunction

/-- The registrations are read on the inner lines of their function. -/
theorem shows_exports_registrations (hs : s.IsWritten) :
    Shows (.innerAfter ["exports["] rfl) (registrations s) (s.commands.map registrationRest) := by
  obtain ⟨hbody, hinside⟩ := body_registrations hs
  obtain ⟨hlines, hlevel⟩ := lines_function fillsLine_registrationSignature.1
    fillsLine_registrationSignature.2 hinside
  have hread : ∀ c : Command, after? ["exports["]
      (dropIndent (lineAt 1 ("exports[" ++ registrationRest c))) = some (registrationRest c) := by
    intro c
    rw [dropIndent_lineAt, String.toList_append, dropIndent_append (by decide),
      ← String.toList_append, after?_append]
  have hall : ∀ cs : List Command,
      ((cs.map fun c => "exports[" ++ registrationRest c).map (lineAt 1)).filterMap
        (fun l => after? ["exports["] (dropIndent l)) = cs.map registrationRest := by
    intro cs
    induction cs with
    | nil => rfl
    | cons c cs ih =>
      rw [List.map_cons, List.map_cons, List.filterMap_cons, hread, ih, List.map_cons]
  have hinner : ((registrationTexts s).map (lineAt 1)).filterMap
      (fun l => after? ["exports["] (dropIndent l)) = s.commands.map registrationRest := by
    have hreturn : ([lineAt 1 "return exports;"]).filterMap
        (fun l => after? ["exports["] (dropIndent l)) = [] := by decide
    rw [registrationTexts, List.map_append, List.filterMap_append, List.map_singleton, hreturn,
      List.append_nil, hall]
  rw [registrations_eq]
  refine ⟨hlevel, ?_, ?_⟩
  · rw [hlines]
    exact outside_cons (by decide) _
  · rw [hlines, hbody]
    show (([registrationSignature.toList, registrationResult.toList] ++
      ((registrationTexts s).map (lineAt 1) ++ [['\x7d']])).filterMap
        (fun l => after? ["exports["] (dropIndent l))) = _
    have hstart : [registrationSignature.toList, registrationResult.toList].filterMap
        (fun l => after? ["exports["] (dropIndent l)) = [] := by decide
    have hend : [['\x7d']].filterMap (fun l => after? ["exports["] (dropIndent l)) = [] := by
      decide
    rw [List.filterMap_append, List.filterMap_append, hstart, hinner, hend, List.nil_append,
      List.append_nil]

theorem innerLinesAfter_exports (hs : s.IsWritten) (config : Config) :
    ReadAs config (bridgeBody s) (bridge s config) (innerLinesAfter ["exports["])
      (s.commands.map registrationRest) := by
  have hprelude : Shows (.innerAfter ["exports["] rfl) bridgePrelude [] :=
    bridgePreludeSpelling.shows rfl (by decide) (by decide)
  have hundef : Shows (.innerAfter ["exports["] rfl)
      [.line "#undef CPP_STR", .line "#undef CPP_INT", .line "#undef CPP_BOOL", .blank] [] :=
    ⟨rfl, by decide, by decide⟩
  have hmodule : Shows (.innerAfter ["exports["] rfl)
      [.blank, .line "NODE_API_MODULE(NODE_GYP_MODULE_NAME, init)"] [] :=
    ⟨rfl, by decide, by decide⟩
  have hbody := shows_bridgeBody hprelude
    (fun c hc => shows_exports_scriptFunction (hs.commands c hc)) hundef
    (shows_exports_registrations hs) hmodule
  rw [List.nil_append, List.flatMap_eq_nil_iff.2 fun _ _ => rfl, List.nil_append] at hbody
  exact (framed_bridge s config).innerLinesAfter (by decide) hbody

end Bridge

/-! ## All files -/

theorem exportKey?_registrationRest (c : Command) :
    exportKey? (registrationRest c) = some c.exportName := by
  have htext : (registrationRest c).toList = '\x22' :: (quoteBody c.exportName.toList ++
      '\x22' :: ("] = Napi::Function::New(env, " ++ c.bridgeName ++ ");").toList) := by
    simp [registrationRest, toList_quote]
  rw [exportKey?, htext]
  simp only [unquote?_quoteBody, Option.map_some, String.ofList_toList]

theorem leadingName_signatureRest {c : Command} (hc : c.IsWritten) :
    leadingName (signatureRest c) = c.exportName := by
  have htext : signatureRest c = c.exportName ++ (" (" ++
      ((if c.fields.isEmpty then "" else "options: " ++ c.optionsName) ++ "): Response")) := by
    unfold signatureRest
    simp only [String.append_assoc]
  rw [htext]
  exact leadingName_append (isName_exportName hc) (by simp [isIdentifierRest])

theorem map_exportKey? (s : Schema) :
    (s.commands.map registrationRest).map exportKey? = s.exports.map some := by
  rw [Schema.exports, List.map_map, List.map_map]
  refine List.map_congr_left fun c _ => ?_
  rw [Function.comp_apply, exportKey?_registrationRest, Function.comp_apply]

theorem map_leadingName_signatureRest (hs : s.IsWritten) :
    (s.commands.map signatureRest).map leadingName = s.exports := by
  rw [Schema.exports, List.map_map]
  refine List.map_congr_left fun c hc => ?_
  rw [Function.comp_apply, leadingName_signatureRest (hs.commands c hc)]

/-- The files of a loaded schema list its commands in the order of the schema and nothing else,
whatever the schema holds, if no text of the configuration breaks a line. The exports are those that
scripts call. -/
theorem listsCommands_of_load {text : String} {config : Config} {s : Schema}
    (hs : Schema.load text config = .ok s) {emission : Config} (hemission : emission.IsPlain) :
    ListsCommands s (Artifacts.ofSchema s emission) := by
  have hl := Schema.isLoaded_of_load hs
  have hw := hl.written
  have hregistrations := (innerLinesAfter_exports hw emission).file hemission
  have hsignatures := (linesAfter_export hw emission).file hemission
  exact {
    structs := (linesAfter_struct hw emission).file hemission
    alternatives := linesBetween_union hw hemission
    handlers := (linesAfter_run hw emission).file hemission
    branches := (innerLinesAfter_if hw hl.rules.nonempty emission).file hemission
    registrations := hregistrations
    signatures := hsignatures
    keys := (congrArg (List.map exportKey?) hregistrations).trans (map_exportKey? s)
    names := (congrArg (List.map leadingName) hsignatures).trans
      (map_leadingName_signatureRest hw) }

/-- An initializer and a flag that look like the lines in question change nothing. -/
theorem listsCommands_of_load_sell :
    let note : Field := ⟨"-exports[", "note", .string, false, false,
      some "struct Sell \x7b\x7d; // auto run (const x"⟩
    let s : Schema := ⟨[⟨"sell_all", [note]⟩, ⟨"exit", []⟩]⟩
    let files := Artifacts.ofSchema s {}
    Schema.load ("sell_all:\n  \"-exports[\": string note = struct Sell \x7b\x7d; " ++
        "// auto run (const x\nexit: \x7b\x7d\n") {} = .ok s ∧
      linesAfter ["struct "] files.header = ["SellAll \x7b", "Exit \x7b\x7d;"] ∧
      linesBetween "using Command = Variant<" ">;" files.header = ["SellAll,", "Exit"] ∧
      innerLinesAfter ["if (argv0 == ", "\x7d else if (argv0 == "] files.source =
        ["\"sell_all\") \x7b", "\"exit\") \x7b"] ∧
      namesAfter ["export function "] files.declarations = ["sellAll", "exit"] := by
  intro note s files
  have hload : Schema.load ("sell_all:\n  \"-exports[\": string note = struct Sell \x7b\x7d; " ++
      "// auto run (const x\nexit: \x7b\x7d\n") {} = .ok s :=
    Schema.load_of_toOption (by decide +kernel)
  have hlists := listsCommands_of_load hload (Config.isPlain_default [])
  refine ⟨hload, ?_, ?_, ?_, ?_⟩
  · rw [hlists.structs]
    decide +kernel
  · rw [hlists.alternatives]
    decide +kernel
  · rw [hlists.branches]
    decide +kernel
  · rw [hlists.names]
    decide +kernel

end CommandSchema.Generated
