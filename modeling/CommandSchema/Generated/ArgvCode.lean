import CommandSchema.Generated.Code
import CommandSchema.Generated.Types
import CommandSchema.Schema

/-!
# The code of the parser

The code that turns an argument vector into a command. It picks the command by the first argument
and then goes through the others, a flag and a token at a time. Whether a field that has to be
supplied has been seen is kept in a local of its own.

* `ArgvCode.Instruction`, `ArgvCode.Head`, `ArgvCode.Test`: what the code is made of.
* `ArgvCode.ofSchema`: the code of a schema.
* `ArgvCode.writing`: how it is written in C++.
-/

namespace CommandSchema.Generated

/-- The local that tells whether a field has been seen. -/
def seenLocal (f : Field) : String := "seen" ++ Text.capitalize f.name

namespace ArgvCode

/-- An instruction of the parser. The record under construction is `res`, the argument at hand is
`argv[i]`, and the pieces of an array are `values`, the one at hand being `str`. -/
inductive Instruction where
  /-- Ends with an exception. -/
  | reject
  /-- Ends with a new record of a type. -/
  | acceptNew (record : String)
  /-- Ends with the record. -/
  | accept
  /-- Names the first argument. -/
  | nameCommand
  /-- Starts the record. -/
  | newRecord (record : String)
  /-- Starts a local as false. -/
  | newLocal (name : String)
  /-- Makes a local true. -/
  | mark (name : String)
  /-- Names the argument at hand. -/
  | nameFlag
  /-- Assigns the argument at hand to a member. -/
  | assign (member : String) (type : FieldType)
  /-- Copies the argument at hand. -/
  | nameToken
  /-- Assigns the pieces of the copy to a member, as texts. -/
  | assignPieces (member : String)
  /-- Names the pieces of the copy. -/
  | namePieces
  | clear (member : String)
  /-- Makes room for the pieces. -/
  | reserve (member : String)
  /-- Appends the piece at hand to a member. -/
  | append (member : String) (type : FieldType)
  deriving DecidableEq, Repr

/-- A test of the parser. -/
inductive Test where
  | noArguments
  /-- The first argument is a name. -/
  | command (name : String)
  /-- The argument at hand is a flag. -/
  | flag (flag : String)
  /-- Goes to the next argument; holds if there is none. -/
  | nextIsMissing
  /-- One of the locals is false. -/
  | anyUnseen (locals : List String)
  deriving DecidableEq, Repr

/-- The head of a block of the parser. -/
inductive Head where
  | when (test : Test)
  /-- Once for every argument but the first one. -/
  | eachArgument
  /-- Once for every piece. -/
  | eachPiece
  deriving DecidableEq, Repr

/-- The code of a parser. -/
abbrev Body := Code Instruction Head Test

/-- Ends with an exception if a test holds. -/
def rejectWhen (test : Test) (next : Body) : Body :=
  .block (.when test) (.run .reject .done) next

/-! ## The code of a schema -/

/-- Assigns the argument at hand to the member of a field. -/
def assignment (f : Field) (next : Body) : Body :=
  if f.isArray then
    if f.type = .string then .runAll [.nameToken, .assignPieces f.name] next
    else
      .runAll [.nameToken, .namePieces, .clear f.name, .reserve f.name] <|
        .block .eachPiece (.run (.append f.name f.type) .done) next
  else .run (.assign f.name f.type) next

/-- Takes the token after the flag of a field. -/
def supply (f : Field) : Body :=
  rejectWhen .nextIsMissing <|
    assignment f <| if f.isRequired then .run (.mark (seenLocal f)) .done else .done

/-- Takes one flag and its token. -/
def flagCode (c : Command) : Body :=
  .run .nameFlag <|
    .choose (.ofList (c.fields.map fun f => (.flag f.flag, supply f)) (.run .reject .done)) .done

/-- Ends with an exception if a field that has to be supplied has not been seen. -/
def checkSeen (locals : List String) (next : Body) : Body :=
  if locals.isEmpty then next else rejectWhen (.anyUnseen locals) next

/-- The code of a command, once it has been picked. -/
def commandCode (c : Command) : Body :=
  if c.fields.isEmpty then .run (.acceptNew c.recordName) .done
  else
    let locals := c.requiredFields.map seenLocal
    .run (.newRecord c.recordName) <|
      .runAll (locals.map .newLocal) <|
        .block .eachArgument (flagCode c) <|
          checkSeen locals (.run .accept .done)

/-- The code of a schema. -/
def ofSchema (s : Schema) : Body :=
  rejectWhen .noArguments <|
    .run .nameCommand <|
      .choose
        (.ofList (s.commands.map fun c => (.command c.name, commandCode c)) (.run .reject .done))
        .done

/-! ## The code in C++ -/

/-- The C++ expression of the argument at hand as a C string. -/
def argumentText : String := "argv[i].data()"

/-- The C++ expression of the pieces of the copy. -/
def piecesText : String := "split(val, '" ++ .singleton arraySeparator ++ "')"

/-- An instruction in C++. -/
def Instruction.text : Instruction → String
  | .reject => "return ParseException();"
  | .acceptNew record => "return Command(" ++ record ++ "());"
  | .accept => "return Command(res);"
  | .nameCommand => "auto &argv0 = argv[0];"
  | .newRecord record => record ++ " res;"
  | .newLocal name => "bool " ++ name ++ " = false;"
  | .mark name => name ++ " = true;"
  | .nameFlag => "auto &arg = argv[i];"
  | .assign member type => "res." ++ member ++ " = " ++ type.ofTokenText argumentText ++ ";"
  | .nameToken => "std::string val = " ++ argumentText ++ ";"
  | .assignPieces member => "res." ++ member ++ " = copyStrings(" ++ piecesText ++ ");"
  | .namePieces => "auto values = " ++ piecesText ++ ";"
  | .clear member => "res." ++ member ++ ".clear();"
  | .reserve member => "res." ++ member ++ ".reserve(values.size());"
  | .append member type =>
    "res." ++ member ++ ".push_back(" ++ type.ofTokenText "str.data()" ++ ");"

/-- A test in C++. -/
def Test.text : Test → String
  | .noArguments => "argv.size() == 0"
  | .command name => "argv0 == " ++ Text.quote name
  | .flag name => "arg == " ++ Text.quote name
  | .nextIsMissing => "++i >= argv.size()"
  | .anyUnseen locals => String.intercalate " || " (locals.map fun name => "!" ++ name)

/-- A head in C++. -/
def Head.text : Head → String
  | .when test => "if (" ++ test.text ++ ") \x7b"
  | .eachArgument => "for (int i = 1; i < argv.size(); ++i) \x7b"
  | .eachPiece => "for (auto &str : values) \x7b"

/-- The parser in C++. -/
def writing : Writing Instruction Head Test where
  instruction := Instruction.text
  head := Head.text
  test := Test.text

end ArgvCode

end CommandSchema.Generated
