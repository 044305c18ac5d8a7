import CommandSchema.Generated.Bridge
import CommandSchema.Proofs.Generated.Frame

/-!
# A script function read from its text

The body of the function of a command is found in the bridge by the name of the function and read
as a program. An option is read by the key that it stands under, and an assignment is read only if
the key is the name of the member that it goes to.

* `OptionsCode.grammar`: how the lines of a script function are read.
* `OptionsCode.program?`: the program that a file holds for a function.
* `OptionsCode.program?_scriptFunction`, `OptionsCode.program?_bridge`: in the text of the function
  and in that of the bridge, it is the code of the command.
-/

namespace CommandSchema.Generated.OptionsCode

open Layout Text

/-! ## Expressions -/

/-- What stands before and after a script's value in an expression that makes a value of it. -/
def shapes : List (FieldType × String × String) :=
  [(.string, "CPP_STR(", ")"), (.int, "CPP_INT(", ")"), (.bool, "CPP_BOOL(", ")"),
    (.char, "CPP_STR(", ")[0]"), (.date, "Date(CPP_STR(", ").data())"),
    (.instant, "Instant(CPP_STR(", ").data())"), (.duration, "Duration(CPP_INT(", "))"),
    (.sortType, "CPP_STR(", ")[0] == 't' ? kTime : kCost")]

/-- An expression of a shape. -/
def shaped (expression : String) (shape : FieldType × String × String) : String :=
  shape.2.1 ++ expression ++ shape.2.2

/-- The type of the value that an expression makes of a script's value. -/
def conversion? (expression : String) (text : List Char) : Option FieldType :=
  (shapes.find? fun shape => shaped expression shape == .ofList text).map (·.1)

/-- Expressions of one shape differ from those of another, whatever they are about. -/
theorem shaped_inj {expression : String} {a b : FieldType × String × String} (ha : a ∈ shapes)
    (hb : b ∈ shapes) (h : shaped expression a = shaped expression b) : a = b := by
  -- What is left to check is closed: ends of one total length stand at starts that differ.
  have hclosed : ∀ a ∈ shapes, ∀ b ∈ shapes,
      a.2.1.toList.length + a.2.2.toList.length = b.2.1.toList.length + b.2.2.toList.length →
        a = b ∨ a.2.1.toList.length = b.2.1.toList.length ∧ a.2.1.toList ≠ b.2.1.toList := by
    decide
  have hlist : a.2.1.toList ++ (expression.toList ++ a.2.2.toList) =
      b.2.1.toList ++ (expression.toList ++ b.2.2.toList) := by
    simpa [shaped] using congrArg String.toList h
  have hlength := congrArg List.length hlist
  simp only [List.length_append] at hlength
  obtain he | ⟨hl, hne⟩ := hclosed a ha b hb (by omega)
  · exact he
  · exact absurd (List.append_inj hlist hl).1 hne

theorem exists_shape (t : FieldType) (expression : String) :
    ∃ shape ∈ shapes, shape.1 = t.shown ∧ shaped expression shape = t.ofDynamicText expression := by
  cases t with
  | sortType =>
    refine ⟨(.sortType, "CPP_STR(", ")[0] == 't' ? kTime : kCost"), by simp [shapes], rfl, ?_⟩
    show _ = "CPP_STR(" ++ expression ++ ")" ++ "[0] == '" ++ .singleton truthy ++ "'" ++
      " ? kTime : kCost"
    simp only [shaped, String.append_assoc]
    rfl
  | string => exact ⟨(.string, "CPP_STR(", ")"), by simp [shapes], rfl, rfl⟩
  | foreign name => exact ⟨(.string, "CPP_STR(", ")"), by simp [shapes], rfl, rfl⟩
  | int => exact ⟨(.int, "CPP_INT(", ")"), by simp [shapes], rfl, rfl⟩
  | bool => exact ⟨(.bool, "CPP_BOOL(", ")"), by simp [shapes], rfl, rfl⟩
  | char => exact ⟨(.char, "CPP_STR(", ")[0]"), by simp [shapes], rfl, rfl⟩
  | date => exact ⟨(.date, "Date(CPP_STR(", ").data())"), by simp [shapes], rfl, rfl⟩
  | instant => exact ⟨(.instant, "Instant(CPP_STR(", ").data())"), by simp [shapes], rfl, rfl⟩
  | duration => exact ⟨(.duration, "Duration(CPP_INT(", "))"), by simp [shapes], rfl, rfl⟩

theorem conversion?_ofDynamicText (t : FieldType) (expression : String) :
    conversion? expression (t.ofDynamicText expression).toList = some t.shown := by
  obtain ⟨shape, hshape, ht, htext⟩ := exists_shape t expression
  rw [conversion?, String.ofList_toList, ← htext]
  cases hf : shapes.find? fun other => shaped expression other == shaped expression shape with
  | none =>
    have := List.find?_eq_none.1 hf shape hshape
    simp at this
  | some other =>
    have he : shaped expression other = shaped expression shape := by
      simpa using List.find?_some hf
    rw [shaped_inj (List.mem_of_find?_eq_some hf) hshape he, Option.map_some, ht]

/-- The key of an option, and what follows the option. -/
def option? (cs : List Char) : Option (String × List Char) :=
  match (cs.dropPrefix? "args.Get(\x22".toList).bind unquote? with
  | some (key, ')' :: rest) => some (.ofList key, rest)
  | _ => none

theorem option?_append (key : String) (rest : List Char) :
    option? ((optionText key).toList ++ rest) = some (key, rest) := by
  have hs : (optionText key).toList ++ rest =
      "args.Get(\x22".toList ++ (quoteBody key.toList ++ '\x22' :: ')' :: rest) := by
    simp [optionText, toList_quote]
  rw [hs, option?, List.dropPrefix?_append_of_beq _ (by simp), Option.bind_some,
    unquote?_quoteBody]
  simp only [String.ofList_toList]

/-! ## Lines -/

/-- What is done to a member, from the text after its name. -/
def memberInstruction? (member : String) (tail : List Char) : Option Instruction :=
  if tail = ".reserve(array.Length());".toList then some (.reserve member)
  else match between? ".push_back(" ");" tail with
    | some text => (conversion? "array.Get(i)" text).map (.append member)
    | none =>
      ((between? " = " ";" tail).bind (conversion? (optionText member))).map (.assign member)

/-- What is done to the record, from the text after its name. -/
def resultInstruction? : List Char → Option Instruction
  | '.' :: tail => memberInstruction? (word tail).1 (word tail).2
  | _ => none

/-- The naming of an array, from the text after its name. -/
def arrayInstruction? (tail : List Char) : Option Instruction :=
  match option? tail with
  | some (key, rest) => if rest = ".As<Napi::Array>();".toList then some (.nameArray key) else none
  | none => none

/-- An assignment of an option that is there, from the text of the option. -/
def presentInstruction? (tail : List Char) : Option Instruction :=
  match option? tail with
  | some (key, rest) =>
    match (rest.dropPrefix? ")) cmd".toList).bind resultInstruction? with
    | some (.assign member type) =>
      if member = key then some (.assignPresent member type) else none
    | _ => none
  | none => none

/-- The first names of lines that do not start a record. -/
def leadingWords : List String := ["return", "auto", "cmd", "if"]

/-- An instruction, from its first name and the text after it. -/
def wordInstruction? (name : String) (tail : List Char) : Option Instruction :=
  if name = "return" then
    if tail = " handleCommand(info.Env(), cmd);".toList then some .answer else none
  else if name = "auto" then
    if tail = " args = info[0].ToObject();".toList then some .nameOptions
    else (tail.dropPrefix? " array = ".toList).bind arrayInstruction?
  else if name = "cmd" then resultInstruction? tail
  else if name = "if" then (tail.dropPrefix? " (!isNullish(".toList).bind presentInstruction?
  else if tail = " cmd;".toList then some (.newRecord name)
  else none

/-- An instruction. -/
def instruction? (line : List Char) : Option Instruction :=
  wordInstruction? (word line).1 (word line).2

/-- A head. -/
def head? (line : List Char) : Option Head :=
  if line = "\x7b".toList then some .always
  else if line = "for (int i = 0; i < array.Length(); ++i) \x7b".toList then some .eachElement
  else match (line.dropPrefix? "if (!isNullish(".toList).bind option? with
    | some (key, rest) => if rest = ")) \x7b".toList then some (.present key) else none
    | none => none

/-- The lines of a script function. It has no tests. -/
def grammar : Grammar Instruction Head Empty where
  instruction? := instruction?
  head? := head?
  test? := fun _ => none
  when := nofun
  asTest? := fun _ => none
  asTest?_when := nofun

/-! ## Instructions read back -/

/-- The instruction as its text shows it. -/
def Instruction.shown : Instruction → Instruction
  | .assign member type => .assign member type.shown
  | .assignPresent member type => .assignPresent member type.shown
  | .append member type => .append member type.shown
  | other => other

/-- The names in an instruction are names, and the one that a line starts with is no other. -/
def Instruction.IsNamed : Instruction → Prop
  | .newRecord name => IsName name ∧ name ∉ leadingWords
  | .assign name _ | .assignPresent name _ | .reserve name | .append name _ => IsName name
  | _ => True

namespace Instruction

theorem text_newRecord (name : String) : (newRecord name).text = name ++ " cmd;" := rfl

theorem text_assign (name : String) (type : FieldType) :
    (assign name type).text =
      "cmd." ++ name ++ " = " ++ type.ofDynamicText (optionText name) ++ ";" := rfl

theorem text_assignPresent (name : String) (type : FieldType) :
    (assignPresent name type).text =
      "if (!isNullish(" ++ optionText name ++ ")) " ++ (assign name type).text := rfl

theorem text_nameArray (name : String) :
    (nameArray name).text = "auto array = " ++ optionText name ++ ".As<Napi::Array>();" := rfl

theorem text_reserve (name : String) :
    (reserve name).text = "cmd." ++ name ++ ".reserve(array.Length());" := rfl

theorem text_append (name : String) (type : FieldType) :
    (append name type).text =
      "cmd." ++ name ++ ".push_back(" ++ type.ofDynamicText "array.Get(i)" ++ ");" := rfl

end Instruction

theorem memberInstruction?_assign (member : String) (type : FieldType) :
    memberInstruction? member
        (' ' :: ("= ".toList ++ (type.ofDynamicText (optionText member)).toList ++ ";".toList)) =
      some (.assign member type.shown) := by
  have hs : ' ' :: ("= ".toList ++ (type.ofDynamicText (optionText member)).toList ++ ";".toList) =
      " = ".toList ++ (type.ofDynamicText (optionText member)).toList ++ ";".toList := rfl
  have hnone : between? ".push_back(" ");"
      (' ' :: ("= ".toList ++ (type.ofDynamicText (optionText member)).toList ++ ";".toList)) =
        none := between?_of_ne (c := '.') rfl (by decide)
  rw [memberInstruction?, if_neg (by simp), hnone, hs]
  simp only [between?_append, Option.bind_some, conversion?_ofDynamicText]
  rfl

theorem memberInstruction?_append (member : String) (type : FieldType) :
    memberInstruction? member ('.' ::
        ("push_back(".toList ++ (type.ofDynamicText "array.Get(i)").toList ++ ");".toList)) =
      some (.append member type.shown) := by
  have hs : '.' ::
      ("push_back(".toList ++ (type.ofDynamicText "array.Get(i)").toList ++ ");".toList) =
      ".push_back(".toList ++ (type.ofDynamicText "array.Get(i)").toList ++ ");".toList := rfl
  rw [hs, memberInstruction?, if_neg (by simp), between?_append]
  simp only [conversion?_ofDynamicText]
  rfl

theorem resultInstruction?_append {member : String} (h : IsName member) {c : Char}
    (hc : isIdentifierRest c = false) (tail : List Char) :
    resultInstruction? ('.' :: (member.toList ++ c :: tail)) =
      memberInstruction? member (c :: tail) := by
  rw [resultInstruction?, word_append h hc]

theorem instruction?_word {name : String} (h : IsName name) {c : Char}
    (hc : isIdentifierRest c = false) (tail : List Char) :
    instruction? (name.toList ++ c :: tail) = wordInstruction? name (c :: tail) := by
  rw [instruction?, word_append h hc]

/-- An assignment is read from the text after the record. -/
theorem resultInstruction?_assign {member : String} (h : IsName member) (type : FieldType) :
    ∃ tail, (Instruction.assign member type).text.toList = "cmd".toList ++ '.' :: tail ∧
      resultInstruction? ('.' :: tail) = some (.assign member type.shown) := by
  refine ⟨member.toList ++
    ' ' :: ("= ".toList ++ (type.ofDynamicText (optionText member)).toList ++ ";".toList), ?_, ?_⟩
  · simp [Instruction.text_assign]
  · rw [resultInstruction?_append h (by decide), memberInstruction?_assign]

theorem wordInstruction?_cmd (tail : List Char) :
    wordInstruction? "cmd" tail = resultInstruction? tail := by
  rw [wordInstruction?, if_neg (by decide), if_neg (by decide), if_pos (rfl : "cmd" = "cmd")]

theorem wordInstruction?_if (tail : List Char) :
    wordInstruction? "if" (" (!isNullish(".toList ++ tail) = presentInstruction? tail := by
  rw [wordInstruction?, if_neg (by decide), if_neg (by decide), if_neg (by decide),
    if_pos (rfl : "if" = "if"), List.dropPrefix?_append_of_beq _ BEq.rfl, Option.bind_some]

theorem wordInstruction?_auto (tail : List Char) :
    wordInstruction? "auto" (" array = ".toList ++ tail) = arrayInstruction? tail := by
  rw [wordInstruction?, if_neg (by decide), if_pos (rfl : "auto" = "auto"), if_neg (by simp),
    List.dropPrefix?_append_of_beq _ BEq.rfl, Option.bind_some]

/-- An assignment of an option is read after the test that the option is there. -/
theorem presentInstruction?_append {member : String} {type : FieldType} {tail : List Char}
    (h : resultInstruction? tail = some (.assign member type)) :
    presentInstruction? ((optionText member).toList ++ (")) cmd".toList ++ tail)) =
      some (.assignPresent member type) := by
  rw [presentInstruction?, option?_append]
  simp only [List.dropPrefix?_append_of_beq _ BEq.rfl, Option.bind_some, h]
  exact if_pos trivial

/-- An instruction is read back as its text shows it. -/
theorem instruction?_text {i : Instruction} (h : i.IsNamed) :
    instruction? i.text.toList = some i.shown := by
  have hcmd : IsName "cmd" := by simp [IsName, isIdentifierRest]
  have hauto : IsName "auto" := by simp [IsName, isIdentifierRest]
  have hif : IsName "if" := by simp [IsName, isIdentifierRest]
  cases i with
  | answer | nameOptions => decide
  | newRecord name =>
    have hs : (Instruction.newRecord name).text.toList = name.toList ++ ' ' :: "cmd;".toList := by
      simp [Instruction.text_newRecord]
    obtain ⟨hname, hword⟩ := h
    simp only [leadingWords, List.mem_cons, List.not_mem_nil, or_false, not_or] at hword
    obtain ⟨h₁, h₂, h₃, h₄⟩ := hword
    rw [hs, instruction?_word hname (by decide), wordInstruction?, if_neg h₁, if_neg h₂, if_neg h₃,
      if_neg h₄]
    exact if_pos rfl
  | assign name type =>
    obtain ⟨tail, hs, hread⟩ := resultInstruction?_assign h type
    rw [hs, instruction?_word hcmd (by decide), wordInstruction?_cmd, hread]
    rfl
  | assignPresent name type =>
    obtain ⟨tail, ht, hread⟩ := resultInstruction?_assign h type
    have hs : (Instruction.assignPresent name type).text.toList = "if".toList ++ ' ' ::
        ("(!isNullish(".toList ++
          ((optionText name).toList ++ (")) cmd".toList ++ '.' :: tail))) := by
      simp [Instruction.text_assignPresent, ht]
    have hspace : ' ' :: ("(!isNullish(".toList ++
        ((optionText name).toList ++ (")) cmd".toList ++ '.' :: tail))) =
        " (!isNullish(".toList ++
          ((optionText name).toList ++ (")) cmd".toList ++ '.' :: tail)) := by
      simp
    rw [hs, instruction?_word hif (by decide), hspace, wordInstruction?_if,
      presentInstruction?_append hread]
    rfl
  | nameArray name =>
    have hs : (Instruction.nameArray name).text.toList = "auto".toList ++ ' ' ::
        ("array = ".toList ++ ((optionText name).toList ++ ".As<Napi::Array>();".toList)) := by
      simp [Instruction.text_nameArray]
    have hspace : ' ' ::
        ("array = ".toList ++ ((optionText name).toList ++ ".As<Napi::Array>();".toList)) =
        " array = ".toList ++ ((optionText name).toList ++ ".As<Napi::Array>();".toList) := by
      simp
    rw [hs, instruction?_word hauto (by decide), hspace, wordInstruction?_auto, arrayInstruction?,
      option?_append]
    rfl
  | reserve name =>
    have hs : (Instruction.reserve name).text.toList = "cmd".toList ++
        '.' :: (name.toList ++ '.' :: "reserve(array.Length());".toList) := by
      simp [Instruction.text_reserve]
    rw [hs, instruction?_word hcmd (by decide), wordInstruction?_cmd,
      resultInstruction?_append h (by decide)]
    rfl
  | append name type =>
    have hs : (Instruction.append name type).text.toList = "cmd".toList ++ '.' :: (name.toList ++
        '.' :: ("push_back(".toList ++ (type.ofDynamicText "array.Get(i)").toList ++
          ");".toList)) := by
      simp [Instruction.text_append]
    rw [hs, instruction?_word hcmd (by decide), wordInstruction?_cmd,
      resultInstruction?_append h (by decide), memberInstruction?_append]
    rfl

theorem toList_present (member : String) :
    (Head.present member).text.toList =
      "if (!isNullish(".toList ++ ((optionText member).toList ++ ")) \x7b".toList) := by
  show ("if (!isNullish(" ++ optionText member ++ ")) " ++ "\x7b").toList = _
  simp

theorem head?_text (h : Head) : head? h.text.toList = some h := by
  cases h with
  | always | eachElement => decide
  | present member =>
    rw [toList_present, head?, if_neg (by simp), if_neg (by simp),
      List.dropPrefix?_append_of_beq _ BEq.rfl, Option.bind_some, option?_append]
    rfl

/-! ## Lines read back -/

theorem newline_not_mem_optionText (member : String) : '\n' ∉ (optionText member).toList := by
  simp [optionText, newline_not_mem_quote]

theorem newline_not_mem_ofDynamicText (t : FieldType) {expression : String}
    (h : '\n' ∉ expression.toList) : '\n' ∉ (t.ofDynamicText expression).toList := by
  obtain ⟨shape, hshape, -, htext⟩ := exists_shape t expression
  have hclosed : ∀ shape ∈ shapes, '\n' ∉ shape.2.1.toList ∧ '\n' ∉ shape.2.2.toList := by
    decide
  obtain ⟨hbefore, hafter⟩ := hclosed shape hshape
  rw [← htext, shaped]
  simp [h, hbefore, hafter]

/-- An instruction is one line that ends in a semicolon. -/
theorem instruction_line {i : Instruction} (h : i.IsNamed) :
    '\n' ∉ i.text.toList ∧ i.text.toList.getLast? = some ';' ∧
      unindent i.text.toList = i.text.toList := by
  have hname {name : String} (hn : IsName name) : '\n' ∉ name.toList := hn.not_mem (by decide)
  cases i with
  | answer | nameOptions => decide
  | newRecord name =>
    rw [Instruction.text_newRecord]
    refine ⟨by simp [hname h.1], getLast?_toList_append _ (by decide), ?_⟩
    simpa using unindent_name h.1 (by decide) _
  | assign name type =>
    have ht := newline_not_mem_ofDynamicText type (newline_not_mem_optionText name)
    rw [Instruction.text_assign]
    exact ⟨by simp [hname h, ht], getLast?_toList_append _ (by decide), by simp [unindent]⟩
  | assignPresent name type =>
    have ho := newline_not_mem_optionText name
    have ht := newline_not_mem_ofDynamicText type ho
    rw [Instruction.text_assignPresent, Instruction.text_assign]
    exact ⟨by simp [hname h, ho, ht],
      getLast?_toList_append _ (getLast?_toList_append _ (by decide)), by simp [unindent]⟩
  | nameArray name =>
    have ho := newline_not_mem_optionText name
    rw [Instruction.text_nameArray]
    exact ⟨by simp [ho], getLast?_toList_append _ (by decide), by simp [unindent]⟩
  | reserve name =>
    rw [Instruction.text_reserve]
    exact ⟨by simp [hname h], getLast?_toList_append _ (by decide), by simp [unindent]⟩
  | append name type =>
    have he : '\n' ∉ "array.Get(i)".toList := by decide
    have ht := newline_not_mem_ofDynamicText type he
    rw [Instruction.text_append]
    exact ⟨by simp [hname h, ht], getLast?_toList_append _ (by decide), by simp [unindent]⟩

/-- A head is one line that ends in an opening brace. -/
theorem head_line (h : Head) :
    '\n' ∉ h.text.toList ∧ h.text.toList.getLast? = some '\x7b' ∧
      ∃ c cs, h.text.toList = c :: cs ∧ c ≠ ' ' ∧ c ≠ '\x7d' := by
  cases h with
  | always => exact ⟨by decide, by decide, '\x7b', _, rfl, by decide, by decide⟩
  | eachElement => exact ⟨by decide, by decide, 'f', _, rfl, by decide, by decide⟩
  | present member =>
    have ho := newline_not_mem_optionText member
    rw [toList_present]
    refine ⟨by simp [ho], ?_, 'i', _, rfl, by decide, by decide⟩
    rw [List.getLast?_append, List.getLast?_append]
    rfl

/-- The names in an instruction can be told. -/
def markIsNamed : Mark Instruction Head Empty → Prop
  | .instruction i => i.IsNamed
  | _ => True

/-- Every line that can be told from its text is read as what it says. -/
theorem reads_of_isNamed {m : Mark Instruction Head Empty} (h : markIsNamed m) :
    grammar.Reads writing Instruction.shown m := by
  cases m with
  | instruction i =>
    obtain ⟨hn, hlast, hunindent⟩ := instruction_line h
    exact Grammar.reads_instruction hn hlast hunindent (instruction?_text h)
  | opening head =>
    obtain ⟨hn, hlast, hfirst⟩ := head_line head
    exact Grammar.reads_opening hn hlast hfirst (head?_text head)
  | arm t => cases t
  | otherwise => exact ⟨fillsLine_otherwise, rfl⟩
  | closing => exact ⟨fillsLine_closing, rfl⟩

/-! ## The code of a command -/

theorem allMarks_supply {f : Field} (h : f.IsWritten) {next : Body}
    (hn : next.AllMarks grammar markIsNamed) : (supply f next).AllMarks grammar markIsNamed := by
  have hname := h.isName_name
  unfold supply
  split_ifs
  · exact ⟨trivial, ⟨trivial, hname, trivial, ⟨hname, trivial⟩, trivial⟩, hn⟩
  · exact ⟨trivial, ⟨trivial, hname, trivial, ⟨hname, trivial⟩, trivial⟩, hn⟩
  · exact ⟨hname, hn⟩
  · exact ⟨hname, hn⟩

/-- Every line of the code of a command can be told from its text. -/
theorem allMarks_ofCommand {c : Command} (h : c.IsWritten) :
    (ofCommand c).AllMarks grammar markIsNamed := by
  have hanswer : (Code.run .answer .done : Body).AllMarks grammar markIsNamed := ⟨trivial, trivial⟩
  have hfields : ∀ fields : List Field, (∀ f ∈ fields, f.IsWritten) →
      (fields.foldr supply (.run .answer .done)).AllMarks grammar markIsNamed := by
    intro fields hfields
    induction fields with
    | nil => exact hanswer
    | cons f fields ih =>
      obtain ⟨hf, hrest⟩ := List.forall_mem_cons.1 hfields
      exact allMarks_supply hf (ih hrest)
  refine ⟨⟨h.isName_recordName, h.recordName_not_mem (by decide)⟩, ?_⟩
  unfold supplyAll
  split_ifs
  · exact hanswer
  · exact ⟨trivial, hfields c.fields h.fields⟩

/-! ## The program of a function -/

/-- The first line of a script function. -/
def signature (name : String) : String := "auto " ++ name ++ " (const Napi::CallbackInfo &info)"

/-- The second line of a script function. -/
def result : String := "  -> Napi::Value \x7b"

/-- The program in the body of a script function. -/
def program? (name text : String) : Option Body :=
  (functionLines? (signature name) result text).bind grammar.code?

section Function

variable {c : Command}

theorem fillsLine_signature (h : c.IsWritten) : FillsLine (signature c.bridgeName) := by
  have hname : '\n' ∉ c.recordName.toList := h.isName_recordName.not_mem (by decide)
  refine fillsLine_of_getLast? (c := ')') ?_ (getLast?_toList_append _ (by decide)) (by decide)
  simp [signature, Command.bridgeName, hname]

theorem fillsLine_result : FillsLine result :=
  fillsLine_ofList (c := '\x7b') (by decide) rfl (by decide)

theorem scriptFunction_eq (c : Command) :
    scriptFunction c = function (signature c.bridgeName) result ((ofCommand c).steps writing) := by
  simp only [scriptFunction, function, List.append_assoc]
  rfl

/-- The lines of the body are indented, and the code is read from them. -/
theorem body_scriptFunction (h : c.IsWritten) :
    (∀ l ∈ linesFrom 1 ((ofCommand c).steps writing), l.head? = some ' ') ∧
      levelAfter 1 ((ofCommand c).steps writing) = 1 ∧
      grammar.code? (linesFrom 1 ((ofCommand c).steps writing)) =
        some ((ofCommand c).map Instruction.shown) := by
  have hall : (ofCommand c).AllMarks grammar (grammar.Reads writing Instruction.shown) :=
    (allMarks_ofCommand h).imp fun _ => reads_of_isNamed
  obtain ⟨hlines, hlevel⟩ := (ofCommand c).linesFrom_steps (fun _ h => h.1) nofun 1 hall
  refine ⟨?_, hlevel, Grammar.code?_linesFrom hall nofun 1⟩
  rw [hlines]
  exact fun l => (ofCommand c).head?_of_mem_layout 0

/-- The program of a function is found where its signature does not occur before. -/
theorem program?_render (h : c.IsWritten) {before after : List Step}
    (hbefore : Lacks (signature c.bridgeName).toList before) :
    program? c.bridgeName (render (before ++ scriptFunction c ++ after)) =
      some ((ofCommand c).map Instruction.shown) := by
  obtain ⟨hbody, hlevel, hcode⟩ := body_scriptFunction h
  have hlines : functionLines? (signature c.bridgeName) result
      (render (before ++ scriptFunction c ++ after)) =
        some (linesFrom 1 ((ofCommand c).steps writing)) := by
    rw [scriptFunction_eq]
    exact functionLines?_render (fillsLine_signature h) fillsLine_result hbefore hbody hlevel
  rw [program?, hlines, Option.bind_some, hcode]

/-- In the text of its function, the code of a command is read as its text shows it. -/
theorem program?_scriptFunction (h : c.IsWritten) :
    program? c.bridgeName (render (scriptFunction c)) =
      some ((ofCommand c).map Instruction.shown) := by
  have hread : program? c.bridgeName (render ([] ++ scriptFunction c ++ [])) = _ :=
    program?_render h ⟨rfl, List.not_mem_nil⟩
  rw [List.nil_append, List.append_nil] at hread
  exact hread

theorem lines_scriptFunction (h : c.IsWritten) :
    lines (scriptFunction c) ≠ [] ∧ levelAfter 0 (scriptFunction c) = 0 := by
  obtain ⟨-, hlevel, -⟩ := body_scriptFunction h
  obtain ⟨hlines, hafter⟩ := lines_function (fillsLine_signature h) fillsLine_result hlevel
  rw [scriptFunction_eq, hlines]
  exact ⟨by simp, hafter⟩

/-- The signature of a function does not occur in a function with another name. -/
theorem lacks_scriptFunction {d : Command} (h : d.IsWritten) (hne : c.recordName ≠ d.recordName) :
    Lacks (signature c.bridgeName).toList (scriptFunction d) := by
  obtain ⟨hbody, hlevel, -⟩ := body_scriptFunction h
  have hhead : (signature c.bridgeName).toList.head? = some 'a' := by simp [signature]
  rw [scriptFunction_eq]
  refine lacks_function (fillsLine_signature h) fillsLine_result rfl hbody hlevel ?_ ?_ ?_
  · intro he
    refine hne (String.toList_inj.1 ?_)
    simpa [signature, Command.bridgeName] using he
  · rw [hhead]
    decide
  · intro he
    rw [he] at hhead
    exact absurd hhead (by decide)

end Function

/-! ## The bridge -/

/-- What the bridge holds before the functions of the commands. -/
def opening (config : Config) : List Step :=
  [disclaimer, .blank,
    .line "#ifndef BUILD_NODEJS",
    .line "#error \"This file only works in Node builds\"",
    .line "#endif // BUILD_NODEJS", .blank,
    .line "#include <napi.h>", .blank] ++
    (bridgeInclusions config.files).map inclusion ++
    [.blank, namespaceStart config.nameSpace, .blank] ++
    bridgePrelude ++ [.blank]

/-- The functions of commands. -/
def functions (commands : List Command) : List Step :=
  commands.flatMap fun c => scriptFunction c ++ [.blank]

/-- The bridge around the function of one command. -/
theorem bridge_eq {s : Schema} {before after : List Command} {c : Command}
    (h : s.commands = before ++ c :: after) (config : Config) :
    ∃ last, bridge s config = (opening config ++ functions before) ++ scriptFunction c ++ last := by
  refine ⟨[.blank] ++ functions after ++
    ([.line "#undef CPP_STR", .line "#undef CPP_INT", .line "#undef CPP_BOOL", .blank] ++
      registrations s ++ [.blank, .line "NODE_API_MODULE(NODE_GYP_MODULE_NAME, init)", .blank,
        namespaceEnd config.nameSpace]), ?_⟩
  simp only [bridge, opening, functions, h, List.flatMap_append, List.flatMap_cons,
    List.append_assoc]

theorem lacks_blank {line : List Char} (h : line.head? = some 'a') : Lacks line [.blank] := by
  refine lacks_of_head rfl ?_
  rw [h]
  decide

theorem lacks_bridgePrelude {line : List Char} (h : line.head? = some 'a') :
    Lacks line bridgePrelude := by
  refine lacks_of_head rfl ?_
  rw [h]
  simp only [bridgePrelude, lines, linesFrom, Step.lines, Step.level, textLines]
  -- A literal is taken apart faster as a list of characters.
  repeat rw [String.toList_ofList]
  decide

/-- No line of the opening starts as a signature does. -/
theorem lacks_opening {line : List Char} (h : line.head? = some 'a') {config : Config}
    (hconfig : '\n' ∉ config.nameSpace.toList) : Lacks line (opening config) := by
  have hstart : Lacks line [disclaimer, .blank, .line "#ifndef BUILD_NODEJS",
      .line "#error \"This file only works in Node builds\"", .line "#endif // BUILD_NODEJS",
      .blank, .line "#include <napi.h>", .blank] := by
    refine lacks_of_head rfl ?_
    rw [h]
    decide
  have hinclusions : Lacks line ((bridgeInclusions config.files).map inclusion) := by
    rw [List.map_eq_flatMap]
    exact Lacks.flatMap fun header _ => lacks_inclusion (by rw [h]; decide) header
  have hblank := lacks_blank h
  have hnamespace : Lacks line [namespaceStart config.nameSpace] :=
    lacks_namespaceStart (by rw [h]; decide) hconfig
  have hstartNamespace := hblank.append (hnamespace.append hblank)
  exact (((hstart.append hinclusions).append hstartNamespace).append
    (lacks_bridgePrelude h)).append hblank

theorem levelAfter_functions {commands : List Command} (h : ∀ c ∈ commands, c.IsWritten) :
    levelAfter 0 (functions commands) = 0 := by
  refine levelAfter_flatMap fun c hc => ?_
  rw [levelAfter_append, (lines_scriptFunction (h c hc)).2]
  rfl

theorem head?_signature (name : String) : (signature name).toList.head? = some 'a' := by
  simp [signature]

/-- The signature of a function does not occur in the functions before it. -/
theorem lacks_functions {s : Schema} (h : s.IsWritten)
    (hrecords : (s.commands.map (·.recordName)).Nodup) {before after : List Command} {c : Command}
    (hsplit : s.commands = before ++ c :: after) :
    Lacks (signature c.bridgeName).toList (functions before) := by
  refine Lacks.flatMap fun d hd => (lacks_scriptFunction ?_ ?_).append
    (lacks_blank (head?_signature c.bridgeName))
  · exact h.commands d (by rw [hsplit]; exact List.mem_append_left _ hd)
  · exact Ne.symm (nodup_map_iff.1 hrecords before c after hsplit d hd)

/-- The function of a command is a part of the text of the bridge, and where the namespace has no
line feed, its program is the one that is found there. -/
theorem program?_bridge {s : Schema} (h : s.IsWritten)
    (hrecords : (s.commands.map (·.recordName)).Nodup) {c : Command} (hc : c ∈ s.commands)
    (config : Config) :
    (∃ front back, render (bridge s config) = front ++ render (scriptFunction c) ++ back) ∧
      ('\n' ∉ config.nameSpace.toList → program? c.bridgeName (render (bridge s config)) =
        some ((ofCommand c).map Instruction.shown)) := by
  obtain ⟨before, after, hsplit⟩ := List.append_of_mem hc
  obtain ⟨last, hbridge⟩ := bridge_eq hsplit config
  have hbefore : ∀ d ∈ before, d.IsWritten :=
    fun d hd => h.commands d (by rw [hsplit]; exact List.mem_append_left _ hd)
  obtain ⟨hlines, hlevel⟩ := lines_scriptFunction (h.commands c hc)
  rw [hbridge]
  constructor
  · refine exists_render_append ?_ hlevel hlines
    have hopening : levelAfter 0 (opening config) = 0 := rfl
    rw [levelAfter_append, hopening, levelAfter_functions hbefore]
  · intro hconfig
    have hopening := lacks_opening (head?_signature c.bridgeName) hconfig
    exact program?_render (h.commands c hc)
      (hopening.append (lacks_functions h hrecords hsplit))

end CommandSchema.Generated.OptionsCode
