import CommandSchema.Generated.Code
import CommandSchema.Generated.Types
import CommandSchema.Schema

/-!
# The code of a script function

The code that turns the options of a script into a record and has it run. A member that a caller
may leave out is assigned only if it is there.

* `OptionsCode.Instruction`, `OptionsCode.Head`: what the code is made of.
* `OptionsCode.ofCommand`: the code of a command.
* `OptionsCode.writing`: how it is written in C++.
-/

namespace CommandSchema.Generated.OptionsCode

/-- An instruction of a script function. The record is `cmd`, the options are `args`, and `array`
is the array at hand with its elements at `i`. -/
inductive Instruction where
  /-- Starts the record. -/
  | newRecord (record : String)
  /-- Names the options. -/
  | nameOptions
  /-- Assigns an option to the member of its name. -/
  | assign (member : String) (type : FieldType)
  /-- Does so if the option is there. -/
  | assignPresent (member : String) (type : FieldType)
  /-- Names an option as an array. -/
  | nameArray (member : String)
  /-- Makes room for the elements. -/
  | reserve (member : String)
  /-- Appends the element at hand to a member. -/
  | append (member : String) (type : FieldType)
  /-- Runs the record and ends with the answer. -/
  | answer
  deriving DecidableEq, Repr

/-- The head of a block of a script function. -/
inductive Head where
  | always
  /-- Only if an option is there. -/
  | present (member : String)
  /-- Once for every element. -/
  | eachElement
  deriving DecidableEq, Repr

/-- The code of a script function. It has no chains. -/
abbrev Body := Code Instruction Head Empty

/-! ## The code of a command -/

/-- Takes the option of an array. -/
def supplyArray (f : Field) : Body :=
  .runAll [.nameArray f.name, .reserve f.name] <|
    .block .eachElement (.run (.append f.name f.type) .done) .done

/-- Takes the option of a field. -/
def supply (f : Field) (next : Body) : Body :=
  if f.isArray then
    .block (if f.mayBeAbsent then .present f.name else .always) (supplyArray f) next
  else .run (if f.mayBeAbsent then .assignPresent f.name f.type else .assign f.name f.type) next

/-- Takes the options of all fields. -/
def supplyAll (c : Command) (next : Body) : Body :=
  if c.fields.isEmpty then next else .run .nameOptions (c.fields.foldr supply next)

/-- The code of a command. -/
def ofCommand (c : Command) : Body :=
  .run (.newRecord c.recordName) <| supplyAll c <| .run .answer .done

/-! ## The code in C++ -/

/-- The C++ expression of an option. -/
def optionText (member : String) : String := "args.Get(" ++ Text.quote member ++ ")"

/-- The C++ test that an option is there. -/
def presentText (member : String) : String := "if (!isNullish(" ++ optionText member ++ ")) "

/-- The C++ assignment of an option. -/
def assignText (member : String) (type : FieldType) : String :=
  "cmd." ++ member ++ " = " ++ type.ofDynamicText (optionText member) ++ ";"

/-- An instruction in C++. -/
def Instruction.text : Instruction → String
  | .newRecord record => record ++ " cmd;"
  | .nameOptions => "auto args = info[0].ToObject();"
  | .assign member type => assignText member type
  | .assignPresent member type => presentText member ++ assignText member type
  | .nameArray member => "auto array = " ++ optionText member ++ ".As<Napi::Array>();"
  | .reserve member => "cmd." ++ member ++ ".reserve(array.Length());"
  | .append member type =>
    "cmd." ++ member ++ ".push_back(" ++ type.ofDynamicText "array.Get(i)" ++ ");"
  | .answer => "return handleCommand(info.Env(), cmd);"

/-- A head in C++. -/
def Head.text : Head → String
  | .always => "\x7b"
  | .present member => presentText member ++ "\x7b"
  | .eachElement => "for (int i = 0; i < array.Length(); ++i) \x7b"

/-- A script function in C++. -/
def writing : Writing Instruction Head Empty where
  instruction := Instruction.text
  head := Head.text
  test := nofun

end CommandSchema.Generated.OptionsCode
