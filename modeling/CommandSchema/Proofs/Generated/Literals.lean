import CommandSchema.Proofs.Generated.Order
import CommandSchema.Proofs.Json.ReadBack

/-!
# The literals of the parser

The parser compares the arguments with literals, which hold the names of the commands and the flags
of their fields, in their order.

* `IsFaithful`, `isFaithful_quote`: a literal stays whole on its line and is read back as its text.
* `chains`: the command chain in the source of the parsers, with the flag chain in each branch.
* `ComparesNames`, `quote_faithful`: these chains compare with the names and flags of a loaded
  schema.
-/

namespace CommandSchema.Generated

open Layout Text

/-! ## Statement -/

/-- The literal of a text holds nothing that a line could be broken or trimmed at, so it stays whole
between whatever is written before and after it on a line, and as a JSON literal it is read up to
its end and stands for the text. -/
structure IsFaithful (t : String) : Prop where
  visible : ∀ c ∈ (quote t).toList, 0x20 ≤ c.toNat
  /-- What stands around a literal is cut at its own line breaks and trimmed at its own ends. -/
  whole : ∀ (b : Builder) (before after : String), ∃ front x y back,
    pieces '\n' before.toList = front ++ [x] ∧ pieces '\n' after.toList = y :: back ∧
      (b.line (before ++ quote t ++ after)).written.toList = b.written.toList ++
        (front.map (indented b.level) ++
          (List.replicate (2 * b.level) ' ' ++ x ++ (quote t).toList ++ trimEnd y) ::
            back.map (indented b.level))
  read : Json.read? (quote t) = some (.string t)
  consumed : ∀ rest, Json.readScalar? ((quote t).toList ++ rest) = some (.string t, rest)

/-- What a line of the parser compares: the first argument or a flag, with a literal. -/
inductive Comparison where
  | command (literal : String)
  | flag (literal : String)
  deriving DecidableEq, Repr

/-- The literal that an operand is compared with on a line. -/
def comparedWith? (operand : String) (line : List Char) : Option String :=
  (after? (testStarts operand) line).bind fun rest =>
    (rest.toList.dropSuffix? ") \x7b".toList).map .ofList

/-- What is compared on a line of the parser. -/
def comparison? (line : List Char) : Option Comparison :=
  match comparedWith? "argv0" line with
  | some literal => some (.command literal)
  | none => (comparedWith? "arg" line).map .flag

/-- The literals at the start of a list of comparisons that flags are compared with. -/
def leadingFlags : List Comparison → List String
  | .flag literal :: comparisons => literal :: leadingFlags comparisons
  | _ => []

/-- The literals that commands are compared with, each with those that flags are compared with
before the next command. -/
def chainsOf : List Comparison → List (String × List String)
  | [] => []
  | .command literal :: comparisons =>
    (literal, leadingFlags comparisons) :: chainsOf comparisons
  | .flag _ :: comparisons => chainsOf comparisons

/-- The command chain in the source of the parsers, with the flag chain in each of its branches. -/
def chains (source : String) : List (String × List String) :=
  chainsOf ((pieces '\n' source.toList).filterMap fun l => comparison? (dropIndent l))

/-- The literals differ from one another, and they stand for the names in turn. -/
structure Spells (literals names : List String) : Prop where
  nodup : literals.Nodup
  read : literals.map Json.read? = names.map fun n => some (.string n)

/-- The parser in a source compares with the names of the commands and, in the branch of each of
them, with the flags of its fields. -/
structure ComparesNames (s : Schema) (source : String) : Prop where
  commands : Spells ((chains source).map (·.1)) (s.commands.map (·.name))
  flags : List.Forall₂ (fun chain c => Spells chain.2 (c.fields.map (·.flag))) (chains source)
    s.commands

variable {s : Schema}

/-! ## Literals -/

/-- A literal stays whole where it stands in a text that is written: what stands around it is cut
and trimmed as ever, and one line holds the literal between its own parts of both sides. -/
theorem exists_textLines_quote (level : Nat) (before t after : String) : ∃ front x y back,
    pieces '\n' before.toList = front ++ [x] ∧ pieces '\n' after.toList = y :: back ∧
      textLines level (before ++ quote t ++ after) = front.map (indented level) ++
        (List.replicate (2 * level) ' ' ++ x ++ (quote t).toList ++ trimEnd y) ::
          back.map (indented level) := by
  obtain ⟨y, back, hafter⟩ := List.exists_cons_of_ne_nil (pieces_ne_nil '\n' after.toList)
  have hquote := pieces_append_of_not_mem (newline_not_mem_quote t) hafter
  obtain ⟨front, x, hbefore, hall⟩ := exists_pieces_append before.toList hquote
  refine ⟨front, x, y, back, hbefore, hafter, ?_⟩
  -- The closing quote is visible, so what follows it is all that can be trimmed.
  have hline : indented level (x ++ ((quote t).toList ++ y)) =
      List.replicate (2 * level) ' ' ++ x ++ (quote t).toList ++ trimEnd y := by
    have htrim := trimEnd_append_cons (c := '\x22') (by decide)
      (List.replicate (2 * level) ' ' ++ x ++ '\x22' :: quoteBody t.toList) y
    simpa [indented, toList_quote] using htrim
  rw [textLines, String.toList_append, String.toList_append, List.append_assoc, hall,
    List.map_append, List.map_cons, hline]

theorem isFaithful_quote (t : String) : IsFaithful t where
  visible _ hc := le_toNat_of_mem_quote hc
  whole b before after := by
    obtain ⟨front, x, y, back, hbefore, hafter, hlines⟩ :=
      exists_textLines_quote b.level before t after
    exact ⟨front, x, y, back, hbefore, hafter, by rw [toList_written_line, hlines]⟩
  read := Json.read?_quote t
  consumed rest := Json.readScalar?_quote t rest

/-- Different names have different literals. -/
theorem spells_map_quote {names : List String} (h : names.Nodup) :
    Spells (names.map quote) names where
  nodup := h.map quote_injective
  read := by
    rw [List.map_map]
    refine List.map_congr_left fun n _ => ?_
    rw [Function.comp_apply, Json.read?_quote]

/-! ## Chains -/

theorem chainsOf_flatMap {α : Type} (literal : α → String) (flags : α → List String) (l : List α) :
    chainsOf (l.flatMap fun a => .command (literal a) :: (flags a).map .flag) =
      l.map fun a => (literal a, flags a) := by
  have hflags : ∀ (ls : List String) (cs : List Comparison), leadingFlags cs = [] →
      leadingFlags (ls.map .flag ++ cs) = ls ∧ chainsOf (ls.map .flag ++ cs) = chainsOf cs := by
    intro ls cs hcs
    induction ls with
    | nil => exact ⟨hcs, rfl⟩
    | cons l ls ih => exact ⟨congrArg (l :: ·) ih.1, ih.2⟩
  induction l with
  | nil => rfl
  | cons a l ih =>
    have hnext : leadingFlags
        (l.flatMap fun a => .command (literal a) :: (flags a).map .flag) = [] := by
      cases l <;> rfl
    obtain ⟨hleading, hrest⟩ := hflags (flags a) _ hnext
    rw [List.flatMap_cons, List.cons_append, chainsOf, hleading, hrest, ih, List.map_cons]

/-- Chains of the literals of the names and flags of a schema compare with these. -/
theorem comparesNames_of_chains (hs : s.IsWritten) {source : String}
    (h : chains source =
      s.commands.map fun c => (quote c.name, c.fields.map fun f => quote f.flag)) :
    ComparesNames s source where
  commands := by
    have hnames : (chains source).map (·.1) = (s.commands.map (·.name)).map quote := by
      rw [h, List.map_map, List.map_map]
      rfl
    rw [hnames]
    exact spells_map_quote hs.names
  flags := by
    rw [h, List.forall₂_map_left_iff, List.forall₂_same]
    intro c hc
    have hflags : (c.fields.map fun f => quote f.flag) = (c.fields.map (·.flag)).map quote := by
      rw [List.map_map]
      rfl
    rw [hflags]
    exact spells_map_quote (hs.commands c hc).flags

section Parser

open ArgvCode

/-! ## Lines that compare -/

/-- A test of the operand tells what it is compared with. -/
theorem comparedWith?_test {lead : String} (hlead : lead ∈ testLeads) (operand literal : String) :
    comparedWith? operand
      (dropIndent (lead ++ (operand ++ " == " ++ literal) ++ ") \x7b").toList) = some literal := by
  have htext : lead ++ (operand ++ " == " ++ literal) ++ ") \x7b" =
      lead ++ (operand ++ " == ") ++ (literal ++ ") \x7b") := by
    simp only [String.append_assoc]
  have hliteral : (literal ++ ") \x7b").toList.dropSuffix? ") \x7b".toList = some literal.toList :=
    List.dropSuffix?_eq_some_iff.2 ⟨_, String.toList_append, by simp⟩
  rw [htext, comparedWith?, after?_testStarts hlead, Option.bind_some, hliteral,
    Option.map_some, String.ofList_toList]

/-- The operands that literals are compared with. -/
def operands : List String := ["argv0", "arg"]

/-- A line that is introduced otherwise compares nothing. -/
theorem comparison?_eq_none {line : List Char}
    (h : ∀ operand ∈ operands, after? (testStarts operand) line = none) :
    comparison? line = none := by
  rw [comparison?, comparedWith?, comparedWith?, h "argv0" (by decide), h "arg" (by decide)]
  rfl

/-- What a test compares. -/
def testComparison? : Test → Option Comparison
  | .command name => some (.command (quote name))
  | .flag flag => some (.flag (quote flag))
  | _ => none

/-- What a line compares. -/
def markComparison? : Mark Instruction Head Test → Option Comparison
  | .opening (.when t) | .arm t => testComparison? t
  | _ => none

theorem comparison?_test {lead : String} (hlead : lead ∈ testLeads) {t : Test} (ht : t.IsNamed) :
    comparison? (dropIndent (lead ++ t.text ++ ") \x7b").toList) = testComparison? t := by
  have hclosed : ∀ start ∈ ["argv.", "++i", "!"], ∀ operand ∈ operands,
      Clash (operand ++ " == ").toList start.toList := by decide
  have hother : ∀ start ∈ ["argv.", "++i", "!"], ∀ rest, t.text.toList = start.toList ++ rest →
      comparison? (dropIndent (lead ++ t.text ++ ") \x7b").toList) = none := by
    intro start hstart rest hrest
    have htext : (lead ++ t.text ++ ") \x7b").toList =
        lead.toList ++ (start.toList ++ (rest ++ ") \x7b".toList)) := by
      simp only [String.toList_append, hrest, List.append_assoc]
    rw [htext]
    exact comparison?_eq_none fun operand ho =>
      after?_testStarts_eq_none hlead (hclosed start hstart operand ho) _
  cases t with
  | noArguments => exact hother "argv." (by simp) "size() == 0".toList (by decide)
  | nextIsMissing => exact hother "++i" (by simp) " >= argv.size()".toList (by decide)
  | anyUnseen locals =>
    obtain ⟨cs, hcs⟩ := exists_cons_anyUnseen ht.1
    exact hother "!" (by simp) cs hcs
  | command name =>
    have htext : (Test.command name).text = "argv0" ++ " == " ++ quote name := rfl
    rw [htext, comparison?, comparedWith?_test hlead]
    rfl
  | flag flag =>
    have htext : (Test.flag flag).text = "arg" ++ " == " ++ quote flag := rfl
    have hcommand : Clash ("argv0" ++ " == ").toList "arg ".toList := by decide
    have hrest : (lead ++ (Test.flag flag).text ++ ") \x7b").toList = lead.toList ++
        ("arg ".toList ++ ("== " ++ quote flag ++ ") \x7b").toList) := by
      rw [htext]
      simp
    have hnone := after?_testStarts_eq_none hlead hcommand ("== " ++ quote flag ++ ") \x7b").toList
    rw [← hrest] at hnone
    rw [comparison?, comparedWith?, hnone, htext, comparedWith?_test hlead]
    rfl

/-- A line of the parser shows what it compares. -/
theorem comparison?_text {m : Mark Instruction Head Test} (hm : markIsNamed m) :
    comparison? (dropIndent (m.text writing).toList) = markComparison? m := by
  cases m with
  | otherwise | closing => decide
  | arm t => exact comparison?_test (by simp [testLeads]) hm
  | opening head =>
    cases head with
    | eachArgument | eachPiece => decide
    | when t => exact comparison?_test (by simp [testLeads]) hm
  | instruction i =>
    have hclosed : ∀ operand ∈ operands,
        (∀ start ∈ instructionStarts, ∀ i ∈ testStarts operand, Clash i.toList start.toList) ∧
          ∀ i ∈ testStarts operand, '(' ∈ i.toList := by decide
    exact comparison?_eq_none fun operand ho =>
      after?_instruction (hclosed operand ho).1 (hclosed operand ho).2 hm

/-! ## The lines of the parser -/

/-- Nothing is compared where the token after a flag is taken. -/
theorem filterMap_markComparison?_supply (f : Field) :
    ((supply f).marks grammar).filterMap markComparison? = [] := by
  have hassignment : ∀ next : Body, (next.AllMarks grammar fun m => markComparison? m = none) →
      (assignment f next).AllMarks grammar fun m => markComparison? m = none := by
    intro next hnext
    unfold assignment
    split_ifs
    · exact ⟨rfl, rfl, hnext⟩
    · exact ⟨rfl, rfl, rfl, rfl, rfl, ⟨rfl, trivial⟩, hnext⟩
    · exact ⟨rfl, hnext⟩
  have hall : (supply f).AllMarks grammar fun m => markComparison? m = none := by
    refine ⟨rfl, ⟨rfl, trivial⟩, hassignment _ ?_⟩
    split
    · exact ⟨rfl, trivial⟩
    · trivial
  exact List.filterMap_eq_nil_iff.2 fun m hm => hall.forall_mem (by rfl) (by rfl) m hm

/-- The code under an argument compares the flags of the fields in their order. -/
theorem filterMap_markComparison?_flagCode (c : Command) :
    ((flagCode c).marks grammar).filterMap markComparison? =
      (c.fields.map fun f => quote f.flag).map .flag := by
  have hfirst : ∀ f ∈ c.fields, markComparison? (.opening (grammar.when (.flag f.flag))) =
      some (.flag (quote f.flag)) := fun _ _ => rfl
  have harm : ∀ f ∈ c.fields, markComparison? (.arm (.flag f.flag)) =
      some (.flag (quote f.flag)) := fun _ _ => rfl
  have hlast : ∀ m ∈ (Arms.otherwise (.run .reject .done)).marks grammar false,
      markComparison? m = none := by decide
  have harms := Arms.flatMap_marks_ofList hfirst harm
    (fun f _ => filterMap_markComparison?_supply f) hlast true
  rw [← List.map_eq_flatMap] at harms
  have hmarks : (flagCode c).marks grammar = .instruction .nameFlag ::
      ((Arms.ofList (c.fields.map fun f => (.flag f.flag, supply f))
        (.run .reject .done)).marks grammar true ++ []) := rfl
  rw [hmarks, List.append_nil, List.filterMap_cons_none rfl, harms, List.map_map]
  rfl

/-- The code of a command compares nothing else. -/
theorem filterMap_markComparison?_commandCode (c : Command) :
    ((commandCode c).marks grammar).filterMap markComparison? =
      (c.fields.map fun f => quote f.flag).map .flag := by
  have hlocals : ∀ is : List Instruction, (is.map .instruction).filterMap markComparison? = [] := by
    intro is
    rw [List.filterMap_map]
    exact List.filterMap_eq_nil_iff.2 fun _ _ => rfl
  have hcheck : ∀ locals, ((checkSeen locals (.run .accept .done)).marks grammar).filterMap
      markComparison? = [] := by
    intro locals
    unfold checkSeen
    split_ifs <;> rfl
  unfold commandCode
  split_ifs with hempty
  · rw [List.isEmpty_iff.1 hempty]
    rfl
  · rw [Code.marks, Code.marks_runAll, Code.marks, List.filterMap_cons_none rfl,
      List.filterMap_append, hlocals, List.nil_append, List.cons_append,
      List.filterMap_cons_none rfl, List.filterMap_append, filterMap_markComparison?_flagCode,
      List.filterMap_cons_none rfl, hcheck, List.append_nil]

/-- The parser compares the names of the commands in their order, each of them before the flags of
its fields. -/
theorem filterMap_markComparison?_ofSchema (s : Schema) :
    ((ofSchema s).marks grammar).filterMap markComparison? = s.commands.flatMap fun c =>
      .command (quote c.name) :: (c.fields.map fun f => quote f.flag).map .flag :=
  filterMap_marks_ofSchema (fun _ _ => rfl) (fun _ _ => rfl)
    (fun c _ => filterMap_markComparison?_commandCode c) (by decide) (by decide)

/-- The view of what the lines of a text compare. -/
def comparisonView : View Comparison := .ofLines (fun l => comparison? (dropIndent l)) rfl

theorem ignores_comparisonView : comparisonView.Ignores frameStarts := by
  have hclash : ∀ start ∈ frameStarts, ∀ operand ∈ operands, ∀ i ∈ testStarts operand,
      Clash i.toList start.toList := by decide
  exact View.ignores_ofLines fun start hstart rest => comparison?_eq_none fun operand ho =>
    after?_dropIndent_eq_none (head_frameStarts start hstart) (hclash start hstart operand ho) rest

/-- The chains are read from the text of the parser. -/
theorem readAs_chains (hs : s.IsWritten) (hne : s.commands ≠ []) (config : Config) :
    ReadAs config (sourceBody s) (source s config) chains
      (s.commands.map fun c => (quote c.name, c.fields.map fun f => quote f.flag)) := by
  have hline : Shows comparisonView (lineParser ++ [.blank]) [] := ⟨rfl, by decide, by decide⟩
  have hcode : (ofSchema s).AllMarks grammar markIsNamed := allMarks_ofSchema hs hne
  have hfills := hcode.imp fun _ h => (reads_of_isNamed h).1
  have hargv : Shows comparisonView (function signature result ((ofSchema s).steps writing)) _ :=
    shows_function fillsLine_signature fillsLine_result (by decide) (by decide)
      (by decide) (by decide) hfills fun _ => rfl
  have hcompared : ((ofSchema s).marks grammar).filterMap
      (fun m => comparison? (dropIndent (m.text writing).toList)) =
        ((ofSchema s).marks grammar).filterMap markComparison? :=
    List.filterMap_congr fun m hm =>
      comparison?_text (hcode.forall_mem (by trivial) (by trivial) m hm)
  rw [hcompared, filterMap_markComparison?_ofSchema, ← argvParser_eq] at hargv
  exact ((framed_source s config).ofText ignores_comparisonView (hline.append hargv)).map chainsOf
    (chainsOf_flatMap _ _ _)

end Parser

/-! ## All files -/

/-- The literal of every text is faithful, so a text is known from its literal. The parser of a
loaded schema compares the first argument with the literals of the names of the commands, and the
arguments of a command with those of its flags: in the part of the source that depends on the schema
alone, and in the whole source if no text of the configuration breaks a line. -/
theorem quote_faithful :
    (∀ t, IsFaithful t) ∧ Function.Injective quote ∧
      ∀ (text : String) (config : Config) (s : Schema), Schema.load text config = .ok s →
        ComparesNames s (bodies s).source ∧
        ∀ emission : Config,
          (∃ front back,
            (Artifacts.ofSchema s emission).source = front ++ (bodies s).source ++ back) ∧
          (emission.IsPlain → ComparesNames s (Artifacts.ofSchema s emission).source) := by
  refine ⟨isFaithful_quote, quote_injective, fun text config s hs => ?_⟩
  have hl := Schema.isLoaded_of_load hs
  have hread (emission : Config) := readAs_chains hl.written hl.rules.nonempty emission
  have hbody := comparesNames_of_chains hl.written (hread {}).body
  refine ⟨hbody, fun emission => ⟨?_, fun hplain => ?_⟩⟩
  · have hparts := isPart_bodies hl.written hl.rules.nonempty emission
    rw [Artifacts.texts, Artifacts.texts, List.forall₂_cons, List.forall₂_cons,
      List.forall₂_cons] at hparts
    exact hparts.2.2.1
  · exact comparesNames_of_chains hl.written ((hread emission).file hplain)

/-- Flags with quotes, a backslash and brackets that could end a test. -/
theorem quote_faithful_sell :
    let note : Field := ⟨"-\"", "note", .string, false, false, none⟩
    let price : Field := ⟨"-\\", "price", .int, true, false, none⟩
    let days : Field := ⟨"-\")\x7b", "days", .date, false, true, none⟩
    let s : Schema := ⟨[⟨"sell", [note, price, days]⟩, ⟨"exit", []⟩]⟩
    let source := (Artifacts.ofSchema s {}).source
    Schema.load ("sell:\n  '-\"': string note\n  '-\\': int price?\n" ++
        "  '-\")\x7b': Date days[]\nexit: \x7b\x7d\n") {} = .ok s ∧
      chains source = [("\"sell\"", ["\"-\\\"\"", "\"-\\\\\"", "\"-\\\")\x7b\""]),
        ("\"exit\"", [])] ∧
      ComparesNames s source := by
  intro note price days s source
  have hload : Schema.load ("sell:\n  '-\"': string note\n  '-\\': int price?\n" ++
      "  '-\")\x7b': Date days[]\nexit: \x7b\x7d\n") {} = .ok s :=
    Schema.load_of_toOption (by decide +kernel)
  have hplain := Config.isPlain_default []
  obtain ⟨-, hfiles⟩ := quote_faithful.2.2 _ _ _ hload
  refine ⟨hload, ?_, (hfiles {}).2 hplain⟩
  have hl := Schema.isLoaded_of_load hload
  have hchains := (readAs_chains hl.written hl.rules.nonempty {}).file hplain
  refine hchains.trans ?_
  decide +kernel

end CommandSchema.Generated
