import CommandSchema.Generated.Source
import CommandSchema.Proofs.Generated.Frame

/-!
# The parser read from its text

The body of the parser of argument vectors is found in the source of the parsers and read as a
program. An expression that hands a C string over as it is does not tell the type of its value, so
it is read as a text; everything else is read as what it was written for.

* `ArgvCode.grammar`: how the lines of the parser are read.
* `ArgvCode.program?`: the program that the source of the parsers holds.
* `ArgvCode.program?_source`: it is the code of the schema.
-/

namespace CommandSchema

namespace Generated

open Layout Text

/-! ## Expressions -/

/-- The expressions that make a value of a C string, with the types that they make. -/
def conversions (expression : String) : List (String × FieldType) :=
  [(expression, .string), ("atoi(" ++ expression ++ ")", .int),
    (expression ++ "[0] == 't'", .bool), ("*" ++ expression, .char),
    ("Date(" ++ expression ++ ")", .date), ("Instant(" ++ expression ++ ")", .instant),
    ("Duration(atoi(" ++ expression ++ "))", .duration),
    (expression ++ "[0] == 't' ? kTime : kCost", .sortType)]

/-- The type of the value that an expression makes of a C string. -/
def conversion? (expression : String) (text : List Char) : Option FieldType :=
  (conversions expression).lookup (.ofList text)

namespace ArgvCode

/-! ## Lines -/

/-- What is done to a member, from the text after its name. -/
def memberInstruction? (member : String) (tail : List Char) : Option Instruction :=
  if tail = ".clear();".toList then some (.clear member)
  else if tail = ".reserve(values.size());".toList then some (.reserve member)
  else if tail = " = copyStrings(split(val, '|'));".toList then some (.assignPieces member)
  else match between? ".push_back(" ");" tail with
    | some text => (conversion? "str.data()" text).map (.append member)
    | none =>
      ((between? " = " ";" tail).bind (conversion? "argv[i].data()")).map (.assign member)

/-- What is done to the record, from the text after its name. -/
def resultInstruction? : List Char → Option Instruction
  | '.' :: tail => memberInstruction? (word tail).1 (word tail).2
  | _ => none

/-- The first names of lines that neither start a record nor make a local true. -/
def leadingWords : List String := ["return", "bool", "auto", "std", "res"]

/-- An instruction, from its first name and the text after it. -/
def wordInstruction? (name : String) (tail : List Char) : Option Instruction :=
  if name = "return" then
    match between? " Command(" "());" tail with
    | some record => (name? record).map .acceptNew
    | none =>
      if tail = " ParseException();".toList then some .reject
      else if tail = " Command(res);".toList then some .accept
      else none
  else if name = "bool" then ((between? " " " = false;" tail).bind name?).map .newLocal
  else if name = "auto" then
    if tail = " &argv0 = argv[0];".toList then some .nameCommand
    else if tail = " &arg = argv[i];".toList then some .nameFlag
    else if tail = " values = split(val, '|');".toList then some .namePieces
    else none
  else if name = "std" then
    if tail = "::string val = argv[i].data();".toList then some .nameToken else none
  else if name = "res" then resultInstruction? tail
  else if tail = " res;".toList then some (.newRecord name)
  else if tail = " = true;".toList then some (.mark name)
  else none

/-- An instruction. -/
def instruction? (line : List Char) : Option Instruction :=
  wordInstruction? (word line).1 (word line).2

/-- The names of a disjunction of negations, from its words. -/
def unseen? : List (List Char) → Option (List String)
  | ['!' :: name] => some [.ofList name]
  | ('!' :: name) :: ['|', '|'] :: words => (unseen? words).map (.ofList name :: ·)
  | _ => none

/-- A test. -/
def test? (text : List Char) : Option Test :=
  if text = "argv.size() == 0".toList then some .noArguments
  else if text = "++i >= argv.size()".toList then some .nextIsMissing
  else match text.dropPrefix? "argv0 == \x22".toList with
    | some rest => (quoted? rest).map .command
    | none => match text.dropPrefix? "arg == \x22".toList with
      | some rest => (quoted? rest).map .flag
      | none => (unseen? (pieces ' ' text)).map .anyUnseen

/-- A head. -/
def head? (line : List Char) : Option Head :=
  if line = "for (int i = 1; i < argv.size(); ++i) \x7b".toList then some .eachArgument
  else if line = "for (auto &str : values) \x7b".toList then some .eachPiece
  else ((between? "if (" ") \x7b" line).bind test?).map .when

/-- The lines of the parser. -/
def grammar : Grammar Instruction Head Test where
  instruction? := instruction?
  head? := head?
  test? := test?
  when := .when
  asTest? := fun
    | .when test => some test
    | _ => none
  asTest?_when := fun _ => rfl

/-! ## Instructions read back -/

namespace Instruction

@[simp] theorem text_acceptNew (name : String) :
    (acceptNew name).text = "return Command(" ++ name ++ "());" := rfl

@[simp] theorem text_newRecord (name : String) : (newRecord name).text = name ++ " res;" := rfl

@[simp] theorem text_newLocal (name : String) :
    (newLocal name).text = "bool " ++ name ++ " = false;" := rfl

@[simp] theorem text_mark (name : String) : (mark name).text = name ++ " = true;" := rfl

@[simp] theorem text_assign (name : String) (type : FieldType) :
    (assign name type).text = "res." ++ name ++ " = " ++ type.ofTokenText argumentText ++ ";" := rfl

@[simp] theorem text_assignPieces (name : String) :
    (assignPieces name).text = "res." ++ name ++ " = copyStrings(" ++ piecesText ++ ");" := rfl

@[simp] theorem text_clear (name : String) :
    (clear name).text = "res." ++ name ++ ".clear();" := rfl

@[simp] theorem text_reserve (name : String) :
    (reserve name).text = "res." ++ name ++ ".reserve(values.size());" := rfl

@[simp] theorem text_append (name : String) (type : FieldType) :
    (append name type).text =
      "res." ++ name ++ ".push_back(" ++ type.ofTokenText "str.data()" ++ ");" := rfl

end Instruction

/-- The instruction as its text shows it. -/
def Instruction.shown : Instruction → Instruction
  | .assign member type => .assign member type.shown
  | .append member type => .append member type.shown
  | other => other

/-- The names in an instruction are names, and the one that a line starts with is no other. -/
def Instruction.IsNamed : Instruction → Prop
  | .newRecord name | .mark name => IsName name ∧ name ∉ leadingWords
  | .acceptNew name | .newLocal name | .assign name _ | .assignPieces name | .clear name
  | .reserve name | .append name _ => IsName name
  | _ => True

/-- The types that an expression tells. -/
def shownTypes : List FieldType :=
  [.string, .int, .bool, .char, .date, .instant, .duration, .sortType]

theorem shown_mem (type : FieldType) : type.shown ∈ shownTypes := by
  cases type <;> simp [FieldType.shown, shownTypes]

theorem ofTokenText_shown (type : FieldType) (expression : String) :
    type.shown.ofTokenText expression = type.ofTokenText expression := by
  cases type <;> rfl

/-- An assignment is none of the other things that are done to a member. -/
private theorem assign_shown : ∀ type ∈ shownTypes,
    let tail := (" = " ++ type.ofTokenText argumentText ++ ";").toList
    tail ≠ ".clear();".toList ∧ tail ≠ ".reserve(values.size());".toList ∧
      tail ≠ " = copyStrings(split(val, '|'));".toList ∧ between? ".push_back(" ");" tail = none ∧
      (between? " = " ";" tail).bind (conversion? "argv[i].data()") = some type := by
  decide

private theorem append_shown : ∀ type ∈ shownTypes,
    let tail := (".push_back(" ++ type.ofTokenText "str.data()" ++ ");").toList
    tail ≠ ".clear();".toList ∧ tail ≠ ".reserve(values.size());".toList ∧
      tail ≠ " = copyStrings(split(val, '|'));".toList ∧
      (between? ".push_back(" ");" tail).map (conversion? "str.data()") = some (some type) := by
  decide

theorem memberInstruction?_assign (member : String) (type : FieldType) :
    memberInstruction? member (" = " ++ type.ofTokenText argumentText ++ ";").toList =
      some (.assign member type.shown) := by
  obtain ⟨h₁, h₂, h₃, h₄, h₅⟩ := assign_shown _ (shown_mem type)
  rw [← ofTokenText_shown, memberInstruction?, if_neg h₁, if_neg h₂, if_neg h₃, h₄]
  exact congrArg (Option.map (Instruction.assign member)) h₅

theorem memberInstruction?_append (member : String) (type : FieldType) :
    memberInstruction? member (".push_back(" ++ type.ofTokenText "str.data()" ++ ");").toList =
      some (.append member type.shown) := by
  obtain ⟨h₁, h₂, h₃, h₄⟩ := append_shown _ (shown_mem type)
  obtain ⟨text, htext, hconversion⟩ := Option.map_eq_some_iff.1 h₄
  rw [← ofTokenText_shown, memberInstruction?, if_neg h₁, if_neg h₂, if_neg h₃, htext]
  exact congrArg (Option.map (Instruction.append member)) hconversion

theorem instruction?_word {name : String} (h : IsName name) {c : Char}
    (hc : isIdentifierRest c = false) (tail : List Char) :
    instruction? (name.toList ++ c :: tail) = wordInstruction? name (c :: tail) := by
  rw [instruction?, word_append h hc]

theorem wordInstruction?_res (tail : List Char) :
    wordInstruction? "res" tail = resultInstruction? tail := by
  rw [wordInstruction?, if_neg (by decide), if_neg (by decide), if_neg (by decide),
    if_neg (by decide), if_pos rfl]

/-- An instruction about a member is read from the text after the name of the member. -/
theorem instruction?_member {member : String} (h : IsName member) {c : Char}
    (hc : isIdentifierRest c = false) (tail : List Char) :
    instruction? ("res.".toList ++ member.toList ++ c :: tail) =
      memberInstruction? member (c :: tail) := by
  have hres : IsName "res" := by simp [IsName, isIdentifierRest]
  have hs : "res.".toList ++ member.toList ++ c :: tail =
      "res".toList ++ '.' :: (member.toList ++ c :: tail) := by simp
  rw [hs, instruction?_word hres (by decide), wordInstruction?_res, resultInstruction?,
    word_append h hc]

theorem wordInstruction?_of_not_mem {name : String} (h : name ∉ leadingWords) (tail : List Char) :
    wordInstruction? name tail =
      if tail = " res;".toList then some (.newRecord name)
      else if tail = " = true;".toList then some (.mark name)
      else none := by
  simp only [leadingWords, List.mem_cons, List.not_mem_nil, or_false, not_or] at h
  obtain ⟨h₁, h₂, h₃, h₄, h₅⟩ := h
  rw [wordInstruction?, if_neg h₁, if_neg h₂, if_neg h₃, if_neg h₄, if_neg h₅]

/-- An instruction is read back as its text shows it. -/
theorem instruction?_text {i : Instruction} (h : i.IsNamed) :
    instruction? i.text.toList = some i.shown := by
  have hreturn : IsName "return" := by simp [IsName, isIdentifierRest]
  have hbool : IsName "bool" := by simp [IsName, isIdentifierRest]
  cases i with
  | reject | accept | nameCommand | nameFlag | nameToken | namePieces => decide
  | acceptNew name =>
    have hs : (Instruction.acceptNew name).text.toList =
        "return".toList ++ ' ' :: ("Command(".toList ++ name.toList ++ "());".toList) := by
      simp
    have ht : ' ' :: ("Command(".toList ++ name.toList ++ "());".toList) =
        " Command(".toList ++ name.toList ++ "());".toList := by simp
    rw [hs, instruction?_word hreturn (by decide), wordInstruction?,
      if_pos (rfl : "return" = "return"), ht, between?_append]
    simp only [name?_toList h]
    rfl
  | newLocal name =>
    have hs : (Instruction.newLocal name).text.toList =
        "bool".toList ++ ' ' :: (name.toList ++ " = false;".toList) := by
      simp
    have ht : ' ' :: (name.toList ++ " = false;".toList) =
        " ".toList ++ name.toList ++ " = false;".toList := by simp
    rw [hs, instruction?_word hbool (by decide), wordInstruction?,
      if_neg (by decide : ¬ "bool" = "return"), if_pos (rfl : "bool" = "bool"), ht,
      between?_append, Option.bind_some, name?_toList h]
    rfl
  | newRecord name =>
    have hs : (Instruction.newRecord name).text.toList = name.toList ++ ' ' :: "res;".toList := by
      simp
    rw [hs, instruction?_word h.1 (by decide), wordInstruction?_of_not_mem h.2]
    exact if_pos rfl
  | mark name =>
    have hs : (Instruction.mark name).text.toList = name.toList ++ ' ' :: "= true;".toList := by
      simp
    rw [hs, instruction?_word h.1 (by decide), wordInstruction?_of_not_mem h.2,
      if_neg (by decide)]
    exact if_pos rfl
  | assign name type =>
    have hs : (Instruction.assign name type).text.toList = "res.".toList ++ name.toList ++
        ' ' :: ("= " ++ type.ofTokenText argumentText ++ ";").toList := by
      simp
    have ht : ' ' :: ("= " ++ type.ofTokenText argumentText ++ ";").toList =
        (" = " ++ type.ofTokenText argumentText ++ ";").toList := by simp
    rw [hs, instruction?_member h (by decide), ht, memberInstruction?_assign]
    rfl
  | append name type =>
    have hs : (Instruction.append name type).text.toList = "res.".toList ++ name.toList ++
        '.' :: ("push_back(" ++ type.ofTokenText "str.data()" ++ ");").toList := by
      simp
    have ht : '.' :: ("push_back(" ++ type.ofTokenText "str.data()" ++ ");").toList =
        (".push_back(" ++ type.ofTokenText "str.data()" ++ ");").toList := by simp
    rw [hs, instruction?_member h (by decide), ht, memberInstruction?_append]
    rfl
  | assignPieces name =>
    have hs : (Instruction.assignPieces name).text.toList = "res.".toList ++ name.toList ++
        ' ' :: "= copyStrings(split(val, '|'));".toList := by
      simp [piecesText, arraySeparator]
    rw [hs, instruction?_member h (by decide)]
    rfl
  | clear name =>
    have hs : (Instruction.clear name).text.toList =
        "res.".toList ++ name.toList ++ '.' :: "clear();".toList := by
      simp
    rw [hs, instruction?_member h (by decide)]
    rfl
  | reserve name =>
    have hs : (Instruction.reserve name).text.toList =
        "res.".toList ++ name.toList ++ '.' :: "reserve(values.size());".toList := by
      simp
    rw [hs, instruction?_member h (by decide)]
    rfl

/-! ## Tests and heads read back -/

/-- The test can be told from its text: a disjunction has a part, and its parts are names. -/
def Test.IsNamed : Test → Prop
  | .anyUnseen locals => locals ≠ [] ∧ ∀ name ∈ locals, IsName name
  | _ => True

theorem toList_anyUnseen_singleton (name : String) :
    (Test.anyUnseen [name]).text.toList = '!' :: name.toList := by
  show (String.intercalate " || " ["!" ++ name]).toList = _
  simp

theorem toList_anyUnseen_cons (name next : String) (locals : List String) :
    (Test.anyUnseen (name :: next :: locals)).text.toList =
      ('!' :: name.toList) ++ ' ' :: (['|', '|'] ++ ' ' ::
        (Test.anyUnseen (next :: locals)).text.toList) := by
  show (String.intercalate " || " (("!" ++ name) :: ("!" ++ next) :: locals.map _)).toList = _
  rw [String.intercalate_cons_cons]
  simp [Test.text]

theorem unseen?_text {locals : List String} (hne : locals ≠ [])
    (h : ∀ name ∈ locals, IsName name) :
    unseen? (pieces ' ' (Test.anyUnseen locals).text.toList) = some locals := by
  have hspace {name : String} (hn : IsName name) : ' ' ∉ '!' :: name.toList := by
    rw [List.mem_cons, not_or]
    exact ⟨by decide, hn.not_mem (by decide)⟩
  induction locals with
  | nil => exact absurd rfl hne
  | cons name locals ih =>
    have hname := hspace (h name List.mem_cons_self)
    cases locals with
    | nil =>
      rw [toList_anyUnseen_singleton, pieces_of_not_mem hname, unseen?, String.ofList_toList]
    | cons next locals =>
      have ih := ih (by simp) fun n hn => h n (List.mem_cons_of_mem _ hn)
      have hbars : pieces ' ' ['|', '|'] = [['|', '|']] := by decide
      rw [toList_anyUnseen_cons, pieces_append_cons, pieces_of_not_mem hname, pieces_append_cons,
        hbars]
      show (unseen? (pieces ' ' (Test.anyUnseen (next :: locals)).text.toList)).map
        (String.ofList name.toList :: ·) = _
      rw [ih, String.ofList_toList]
      rfl

theorem exists_cons_anyUnseen {locals : List String} (hne : locals ≠ []) :
    ∃ cs, (Test.anyUnseen locals).text.toList = '!' :: cs := by
  obtain ⟨name, locals, rfl⟩ := List.exists_cons_of_ne_nil hne
  cases locals with
  | nil => exact ⟨_, toList_anyUnseen_singleton name⟩
  | cons next locals => exact ⟨_, toList_anyUnseen_cons name next locals⟩

theorem test?_text {t : Test} (h : t.IsNamed) : test? t.text.toList = some t := by
  cases t with
  | noArguments | nextIsMissing => decide
  | command name =>
    have hs : (Test.command name).text.toList =
        "argv0 == \x22".toList ++ (quoteBody name.toList ++ ['\x22']) := by
      show ("argv0 == " ++ quote name).toList = _
      simp [toList_quote]
    rw [hs, test?, if_neg (by simp), if_neg (by simp), List.dropPrefix?_append_of_beq _ (by simp)]
    simp only [quoted?_quoteBody]
    rfl
  | flag name =>
    have hs : (Test.flag name).text.toList =
        "arg == \x22".toList ++ (quoteBody name.toList ++ ['\x22']) := by
      show ("arg == " ++ quote name).toList = _
      simp [toList_quote]
    have hnone : ("arg == \x22".toList ++ (quoteBody name.toList ++ ['\x22'])).dropPrefix?
        "argv0 == \x22".toList = none := by simp [List.dropPrefix?]
    rw [hs, test?, if_neg (by simp), if_neg (by simp), hnone]
    simp only [List.dropPrefix?_append_of_beq, BEq.rfl, quoted?_quoteBody]
    rfl
  | anyUnseen locals =>
    obtain ⟨cs, hcs⟩ := exists_cons_anyUnseen h.1
    have hnone₁ : ('!' :: cs).dropPrefix? "argv0 == \x22".toList = none := by
      simp [List.dropPrefix?]
    have hnone₂ : ('!' :: cs).dropPrefix? "arg == \x22".toList = none := by
      simp [List.dropPrefix?]
    have hu := unseen?_text h.1 h.2
    rw [hcs] at hu ⊢
    rw [test?, if_neg (by simp), if_neg (by simp), hnone₁]
    simp only [hnone₂, hu]
    rfl

/-- The tests in a head can be told from its text. -/
def Head.IsNamed : Head → Prop
  | .when test => test.IsNamed
  | _ => True

theorem toList_when (t : Test) :
    (Head.when t).text.toList = "if (".toList ++ t.text.toList ++ ") \x7b".toList := by
  show ("if (" ++ t.text ++ ") \x7b").toList = _
  simp

theorem head?_text {h : Head} (hh : h.IsNamed) : head? h.text.toList = some h := by
  cases h with
  | eachArgument | eachPiece => decide
  | when t =>
    rw [toList_when, head?, if_neg (by simp), if_neg (by simp), between?_append, Option.bind_some,
      test?_text hh]
    rfl

/-! ## Lines read back -/

theorem newline_not_mem_ofTokenText (t : FieldType) :
    '\n' ∉ (t.ofTokenText argumentText).toList ∧ '\n' ∉ (t.ofTokenText "str.data()").toList := by
  cases t with
  | foreign name =>
    show '\n' ∉ argumentText.toList ∧ '\n' ∉ "str.data()".toList
    decide
  | _ => decide

/-- An instruction is one line that ends in a semicolon. -/
theorem instruction_line {i : Instruction} (h : i.IsNamed) :
    '\n' ∉ i.text.toList ∧ i.text.toList.getLast? = some ';' ∧
      unindent i.text.toList = i.text.toList := by
  have hname {name : String} (hn : IsName name) : '\n' ∉ name.toList := hn.not_mem (by decide)
  cases i with
  | reject | accept | nameCommand | nameFlag | nameToken | namePieces => decide
  | newRecord name | mark name =>
    refine ⟨by simp [hname h.1], getLast?_toList_append _ (by decide), ?_⟩
    simpa using unindent_name h.1 (by decide) _
  | assign name type | append name type =>
    have ht := newline_not_mem_ofTokenText type
    exact ⟨by simp [hname h, ht], getLast?_toList_append _ (by decide), by simp [unindent]⟩
  | assignPieces name =>
    exact ⟨by simp [hname h, piecesText, arraySeparator], getLast?_toList_append _ (by decide),
      by simp [unindent]⟩
  | acceptNew name | newLocal name | clear name | reserve name =>
    exact ⟨by simp [hname h], getLast?_toList_append _ (by decide), by simp [unindent]⟩

theorem newline_not_mem_anyUnseen {locals : List String} (h : ∀ name ∈ locals, IsName name) :
    '\n' ∉ (Test.anyUnseen locals).text.toList := by
  induction locals with
  | nil => decide
  | cons name locals ih =>
    have hname : '\n' ∉ name.toList := (h name List.mem_cons_self).not_mem (by decide)
    have ih := ih fun n hn => h n (List.mem_cons_of_mem _ hn)
    cases locals with
    | nil => simp [toList_anyUnseen_singleton, hname]
    | cons next locals => simp [toList_anyUnseen_cons, hname, ih]

theorem newline_not_mem_test {t : Test} (h : t.IsNamed) : '\n' ∉ t.text.toList := by
  cases t with
  | noArguments | nextIsMissing => decide
  | command name =>
    show '\n' ∉ ("argv0 == " ++ quote name).toList
    simp [newline_not_mem_quote]
  | flag name =>
    show '\n' ∉ ("arg == " ++ quote name).toList
    simp [newline_not_mem_quote]
  | anyUnseen locals => exact newline_not_mem_anyUnseen h.2

/-- A head is one line that ends in an opening brace. -/
theorem head_line {h : Head} (hh : h.IsNamed) :
    '\n' ∉ h.text.toList ∧ h.text.toList.getLast? = some '\x7b' ∧
      ∃ c cs, h.text.toList = c :: cs ∧ c ≠ ' ' ∧ c ≠ '\x7d' := by
  cases h with
  | eachArgument =>
    exact ⟨by decide, by decide, 'f', _, rfl, by decide, by decide⟩
  | eachPiece =>
    exact ⟨by decide, by decide, 'f', _, rfl, by decide, by decide⟩
  | when t =>
    have ht : '\n' ∉ t.text.toList := newline_not_mem_test hh
    refine ⟨by simp [toList_when, ht], ?_, 'i', _, by simp [toList_when]; rfl, by decide, by decide⟩
    rw [toList_when, List.getLast?_append]
    rfl

/-- The line says something that can be told from its text. -/
def markIsNamed : Mark Instruction Head Test → Prop
  | .instruction i => i.IsNamed
  | .opening h => h.IsNamed
  | .arm t => t.IsNamed
  | _ => True

/-- Every line that can be told from its text is read as what it says. -/
theorem reads_of_isNamed {m : Mark Instruction Head Test} (h : markIsNamed m) :
    grammar.Reads writing Instruction.shown m := by
  cases m with
  | instruction i =>
    obtain ⟨hn, hlast, hunindent⟩ := instruction_line h
    exact Grammar.reads_instruction hn hlast hunindent (instruction?_text h)
  | opening head =>
    obtain ⟨hn, hlast, hfirst⟩ := head_line h
    exact Grammar.reads_opening hn hlast hfirst (head?_text h)
  | arm t => exact Grammar.reads_arm (newline_not_mem_test h) (test?_text h)
  | otherwise => exact ⟨fillsLine_otherwise, rfl⟩
  | closing => exact ⟨fillsLine_closing, rfl⟩

/-! ## The code of a schema -/

theorem isName_seenLocal {f : Field} (h : f.IsWritten) : IsName (seenLocal f) := by
  obtain ⟨c, cs, hs, hc, hcs⟩ := h.name
  have hseen : IsName "seen" := by simp [IsName, isIdentifierRest]
  have hcap : IsName (capitalize f.name) := by
    refine isName_of_isAlphanum ?_
    rw [capitalize, String.toList_ofList]
    refine isAlphanum_of_mem_mapFirst (fun _ => isAlphanum_of_mem_upper) fun d hd => ?_
    rw [hs] at hd
    obtain rfl | hd := List.mem_cons.1 hd
    · exact isAlphanum_of_isAlpha hc
    · exact hcs d hd
  exact hseen.append hcap

theorem seenLocal_not_mem_leadingWords (f : Field) : seenLocal f ∉ leadingWords :=
  append_not_mem_of_start (by decide) _

/-- The instruction is about the record, a member or a local of a command. -/
def Instruction.IsOf (c : Command) : Instruction → Prop
  | .newRecord name | .acceptNew name => name = c.recordName
  | .newLocal name | .mark name => name ∈ c.requiredFields.map seenLocal
  | .assign name _ | .assignPieces name | .clear name | .reserve name | .append name _ =>
    name ∈ c.fields.map (·.name)
  | .nameCommand => False
  | .reject | .accept | .nameFlag | .nameToken | .namePieces => True

/-- The test is about the flags or all locals of a command. -/
def Test.IsOf (c : Command) : Test → Prop
  | .noArguments | .command _ => False
  | .flag name => name ∈ c.fields.map (·.flag)
  | .nextIsMissing => True
  | .anyUnseen locals => locals ≠ [] ∧ locals = c.requiredFields.map seenLocal

/-- The line belongs to the code of a command. -/
def markIsOf (c : Command) : Mark Instruction Head Test → Prop
  | .instruction i => i.IsOf c
  | .opening (.when t) | .arm t => t.IsOf c
  | _ => True

section Command

variable {c : Command} {f : Field}

theorem allMarks_assignment (hf : f ∈ c.fields) {next : Body}
    (hn : next.AllMarks grammar (markIsOf c)) :
    (assignment f next).AllMarks grammar (markIsOf c) := by
  have hname : f.name ∈ c.fields.map (·.name) := List.mem_map_of_mem hf
  unfold assignment
  split_ifs
  · exact ⟨trivial, hname, hn⟩
  · exact ⟨trivial, trivial, hname, hname, trivial, ⟨hname, trivial⟩, hn⟩
  · exact ⟨hname, hn⟩

theorem allMarks_supply (hf : f ∈ c.fields) :
    (supply f).AllMarks grammar (markIsOf c) := by
  refine ⟨trivial, ⟨trivial, trivial⟩, allMarks_assignment hf ?_⟩
  split
  · next hr => exact ⟨List.mem_map_of_mem (List.mem_filter.2 ⟨hf, hr⟩), trivial⟩
  · trivial

/-- Every line of the code of a command belongs to it. -/
theorem allMarks_commandCode (c : Command) :
    (commandCode c).AllMarks grammar (markIsOf c) := by
  unfold commandCode
  split_ifs with hc
  · exact ⟨rfl, trivial⟩
  · refine ⟨rfl, ?_⟩
    refine Code.allMarks_runAll (fun i hi => ?_) ⟨trivial, ⟨trivial, ?_, trivial⟩, ?_⟩
    · obtain ⟨name, hname, rfl⟩ := List.mem_map.1 hi
      exact hname
    · refine Arms.allMarks_ofList (fun _ => by simpa using hc) (fun a ha => ?_) ⟨trivial, trivial⟩
      obtain ⟨f, hf, rfl⟩ := List.mem_map.1 ha
      have hflag : f.flag ∈ c.fields.map (·.flag) := List.mem_map_of_mem hf
      exact ⟨hflag, hflag, allMarks_supply hf⟩
    · unfold checkSeen
      split_ifs with hl
      · exact ⟨trivial, trivial⟩
      · exact ⟨⟨by simpa using hl, rfl⟩, ⟨trivial, trivial⟩, trivial, trivial⟩

theorem isNamed_of_isOf {i : Instruction} (h : c.IsWritten) (hi : i.IsOf c) : i.IsNamed := by
  have hrecord := h.isName_recordName
  have hmember {name : String} (hn : name ∈ c.fields.map (·.name)) : IsName name := by
    obtain ⟨f, hf, rfl⟩ := List.mem_map.1 hn
    exact (h.fields f hf).isName_name
  have hlocal {name : String} (hn : name ∈ c.requiredFields.map seenLocal) :
      IsName name ∧ name ∉ leadingWords := by
    obtain ⟨f, hf, rfl⟩ := List.mem_map.1 hn
    exact ⟨isName_seenLocal (h.fields f (List.mem_of_mem_filter hf)),
      seenLocal_not_mem_leadingWords f⟩
  cases i with
  | newRecord name =>
    obtain rfl : name = c.recordName := hi
    exact ⟨hrecord, h.recordName_not_mem (by decide)⟩
  | acceptNew name =>
    obtain rfl : name = c.recordName := hi
    exact hrecord
  | newLocal name => exact (hlocal hi).1
  | mark name => exact hlocal hi
  | assign name type | assignPieces name | clear name | reserve name | append name type =>
    exact hmember hi
  | reject | accept | nameCommand | nameFlag | nameToken | namePieces => trivial

theorem Test.isNamed_of_isOf {t : Test} (h : c.IsWritten) (ht : t.IsOf c) : t.IsNamed := by
  cases t with
  | anyUnseen locals =>
    obtain ⟨hne, rfl⟩ := ht
    refine ⟨hne, fun name hname => ?_⟩
    obtain ⟨f, hf, rfl⟩ := List.mem_map.1 hname
    exact isName_seenLocal (h.fields f (List.mem_of_mem_filter hf))
  | _ => trivial

/-- A line that belongs to the code of a command can be told from its text. -/
theorem markIsNamed_of_isOf (h : c.IsWritten) {m : Mark Instruction Head Test}
    (hm : markIsOf c m) : markIsNamed m := by
  cases m with
  | instruction i => exact isNamed_of_isOf h hm
  | opening head =>
    cases head with
    | when t => exact Test.isNamed_of_isOf h hm
    | eachArgument | eachPiece => trivial
  | arm t => exact Test.isNamed_of_isOf h hm
  | otherwise | closing => trivial

end Command

/-- Every line of the code of a schema can be told from its text. -/
theorem allMarks_ofSchema {s : Schema} (h : s.IsWritten) (hne : s.commands ≠ []) :
    (ofSchema s).AllMarks grammar markIsNamed := by
  refine ⟨trivial, ⟨trivial, trivial⟩, trivial, ?_, trivial⟩
  refine Arms.allMarks_ofList (fun _ => by simpa using hne) (fun a ha => ?_) ⟨trivial, trivial⟩
  obtain ⟨c, hc, rfl⟩ := List.mem_map.1 ha
  have hcode := (allMarks_commandCode c).imp fun _ => markIsNamed_of_isOf (h.commands c hc)
  exact ⟨trivial, trivial, hcode⟩

/-! ## The program of a file -/

/-- The two lines of the signature of the parser. -/
def signature : String := "auto parse (const Vector<std::string_view> &argv)"

@[inherit_doc signature]
def result : String := "  -> Result<Command, ParseException> \x7b"

theorem fillsLine_signature : FillsLine signature :=
  fillsLine_of_getLast? (c := ')') (by decide) (by decide) (by decide)

theorem fillsLine_result : FillsLine result :=
  fillsLine_of_getLast? (c := '\x7b') (by decide) (by decide) (by decide)

theorem argvParser_eq (s : Schema) :
    argvParser s = function signature result ((ofSchema s).steps writing) := by
  simp only [argvParser, function, List.append_assoc]
  rfl

/-- The program in the body of the parser of argument vectors. -/
def program? (text : String) : Option Body :=
  (functionLines? signature result text).bind grammar.code?

/-- What the source of the parsers holds before the parser of argument vectors. -/
def preamble (config : Config) : List Step :=
  [disclaimer, .blank, inclusion config.files.header, .blank, inclusion "utility.h", .blank,
    namespaceStart config.nameSpace, .blank] ++ lineParser ++ [.blank]

/-- The signature of the parser does not occur before the parser. -/
theorem lacks_preamble {config : Config} (h : '\n' ∉ config.nameSpace.toList) :
    Lacks signature.toList (preamble config) := by
  have hhead : signature.toList.head? = some 'a' := rfl
  have hdisclaimer : Lacks signature.toList [disclaimer, .blank] :=
    ⟨rfl, by decide⟩
  have hutility : Lacks signature.toList [.blank, inclusion "utility.h", .blank] :=
    ⟨rfl, by decide⟩
  have hline : Lacks signature.toList (.blank :: lineParser ++ [.blank]) :=
    ⟨rfl, by decide⟩
  have hheader : Lacks signature.toList [inclusion config.files.header] :=
    lacks_inclusion (by rw [hhead]; decide) config.files.header
  have hstart : Lacks signature.toList [namespaceStart config.nameSpace] :=
    lacks_namespaceStart (by rw [hhead]; decide) h
  have hsplit : preamble config = [disclaimer, .blank] ++ ([inclusion config.files.header] ++
      ([.blank, inclusion "utility.h", .blank] ++ ([namespaceStart config.nameSpace] ++
        (.blank :: lineParser ++ [.blank])))) := rfl
  rw [hsplit]
  exact hdisclaimer.append (hheader.append (hutility.append (hstart.append hline)))

/-- The lines of the body are indented, and the code is read from them. -/
theorem body_argvParser {s : Schema} (h : s.IsWritten) (hne : s.commands ≠ []) :
    (∀ l ∈ linesFrom 1 ((ofSchema s).steps writing), l.head? = some ' ') ∧
      levelAfter 1 ((ofSchema s).steps writing) = 1 ∧
      grammar.code? (linesFrom 1 ((ofSchema s).steps writing)) =
        some ((ofSchema s).map Instruction.shown) := by
  have hwhen : ∀ t, writing.head (grammar.when t) = "if (" ++ writing.test t ++ ") \x7b" :=
    fun t => rfl
  have hall : (ofSchema s).AllMarks grammar (grammar.Reads writing Instruction.shown) :=
    (allMarks_ofSchema h hne).imp fun _ => reads_of_isNamed
  obtain ⟨hlines, hlevel⟩ := (ofSchema s).linesFrom_steps (fun _ h => h.1) hwhen 1 hall
  refine ⟨?_, hlevel, Grammar.code?_linesFrom hall hwhen 1⟩
  rw [hlines]
  exact fun l => (ofSchema s).head?_of_mem_layout 0

/-- The program of the parser is found where its signature does not occur before. -/
theorem program?_render {s : Schema} (h : s.IsWritten) (hne : s.commands ≠ [])
    {before after : List Step} (hbefore : Lacks signature.toList before) :
    program? (render (before ++ argvParser s ++ after)) =
      some ((ofSchema s).map Instruction.shown) := by
  obtain ⟨hbody, hlevel, hcode⟩ := body_argvParser h hne
  rw [program?, argvParser_eq, functionLines?_render fillsLine_signature fillsLine_result hbefore
    hbody hlevel]
  exact hcode

/-- The body of the parser is found in the source of the parsers, and it is the code of the schema
as its text shows it. -/
theorem program?_source {s : Schema} (h : s.IsWritten) (hne : s.commands ≠ []) {config : Config}
    (hconfig : '\n' ∉ config.nameSpace.toList) :
    program? (render (source s config)) = some ((ofSchema s).map Instruction.shown) := by
  have hsource : source s config = preamble config ++ argvParser s ++
      [.blank, namespaceEnd config.nameSpace] := by
    simp only [source, preamble, List.append_assoc]
  rw [hsource]
  exact program?_render h hne (lacks_preamble hconfig)

end ArgvCode

end Generated

end CommandSchema
