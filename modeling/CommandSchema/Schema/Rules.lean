import CommandSchema.Schema
import CommandSchema.Text.Identifier
import CommandSchema.Text.Quoted

/-!
# The rules of a schema

What has to hold before code can be generated: the names derived from commands and fields must not
clash with each other or with words that the target languages keep for themselves, and every type
must be known.

* `Violation`: a rule that is broken, with the names that break it.
* `Schema.verify`: the first violation, in this order: the foreign types, the empty schema, the
  names of the commands, then the fields of the commands.
-/

namespace CommandSchema

/-- Names that the generated header declares itself. -/
def reservedRecordNames : List String :=
  ["Command", "ParseException", "SortType", "Response", "Exception"]

/-- Words that no member of a C++ struct can be called. -/
def cppKeywords : List String :=
  ["alignas", "alignof", "and", "and_eq", "asm", "auto", "bitand", "bitor", "bool", "break",
    "case", "catch", "char", "char8_t", "char16_t", "char32_t", "class", "compl", "concept",
    "const", "consteval", "constexpr", "constinit", "const_cast", "continue", "co_await",
    "co_return", "co_yield", "decltype", "default", "delete", "do", "double", "dynamic_cast",
    "else", "enum", "explicit", "export", "extern", "false", "float", "for", "friend", "goto",
    "if", "inline", "int", "long", "mutable", "namespace", "new", "noexcept", "not", "not_eq",
    "nullptr", "operator", "or", "or_eq", "private", "protected", "public", "register",
    "reinterpret_cast", "requires", "return", "short", "signed", "sizeof", "static",
    "static_assert", "static_cast", "struct", "switch", "template", "this", "thread_local",
    "throw", "true", "try", "typedef", "typeid", "typename", "union", "unsigned", "using",
    "virtual", "void", "volatile", "wchar_t", "while", "xor", "xor_eq"]

/-- Words that no exported function of a JavaScript module can be called. -/
def jsReservedWords : List String :=
  ["await", "break", "case", "catch", "class", "const", "continue", "debugger", "default",
    "delete", "do", "else", "enum", "export", "extends", "false", "finally", "for", "function",
    "if", "implements", "import", "in", "instanceof", "interface", "let", "new", "null",
    "package", "private", "protected", "public", "return", "static", "super", "switch", "this",
    "throw", "true", "try", "typeof", "var", "void", "while", "with", "yield"]

/-- A broken rule. -/
inductive Violation where
  /-- The name of a foreign type is no identifier. -/
  | foreignName (name : String)
  /-- The name of a foreign type belongs to a built-in one. -/
  | foreignBuiltin (name : String)
  /-- There is no command. -/
  | noCommands
  /-- Two commands have one record name. -/
  | sharedRecord (earlier command record : String)
  /-- A record has a name that the header declares itself. -/
  | reservedRecord (record command : String)
  /-- A function has a name that scripts reserve. -/
  | reservedExport (name command : String)
  /-- Two fields of a command have one name. -/
  | repeatedField (field command : String)
  /-- A field has a name that C++ reserves. -/
  | keywordField (field command : String)
  /-- Two fields of a command have one name but for the case of its first letter. -/
  | sameLocal (earlier field command : String)
  /-- The type of a field is unknown. -/
  | unknownType (type field : String)
  deriving DecidableEq, Repr

/-- The violation in words. -/
def Violation.message : Violation → String
  | .foreignName name => "The opaque type name " ++ Text.quote name ++ " is not an identifier"
  | .foreignBuiltin name => "The opaque type " ++ Text.quote name ++ " shadows a builtin type"
  | .noCommands => "The schema defines no commands"
  | .sharedRecord earlier command record =>
    "The commands " ++ Text.quote earlier ++ " and " ++ Text.quote command ++
      " both map to the record " ++ Text.quote record
  | .reservedRecord record command =>
    "The record name " ++ Text.quote record ++ " of command " ++ Text.quote command ++
      " is reserved"
  | .reservedExport name command =>
    "The export name " ++ Text.quote name ++ " of command " ++ Text.quote command ++
      " is a JavaScript reserved word"
  | .repeatedField field command =>
    "The field " ++ Text.quote field ++ " is defined twice in command " ++ Text.quote command
  | .keywordField field command =>
    "The field name " ++ Text.quote field ++ " in command " ++ Text.quote command ++
      " is a C++ keyword"
  | .sameLocal earlier field command =>
    "The fields " ++ Text.quote earlier ++ " and " ++ Text.quote field ++ " in command " ++
      Text.quote command ++ " differ only in the case of their first letter"
  | .unknownType type field =>
    "The type " ++ Text.quote type ++ " is not defined for field " ++ Text.quote field

/-! ## The rules one by one -/

/-- Judges the name of one foreign type. -/
def checkForeign (name : String) : Except Violation Unit :=
  if !Text.isIdentifier name then .error (.foreignName name)
  else if FieldType.builtinNames.contains name then .error (.foreignBuiltin name)
  else .ok ()

/-- The names of the members of a command that have been judged. -/
structure JudgedFields where
  names : List String
  /-- The names under what they are with an upper-case first letter, the latest one first. -/
  locals : List (String × String)

namespace Command

/-- Judges the names of a command. `records` has the names of the commands before it under their
record names, the latest one first; the result has this command's as well. -/
def checkNames (records : List (String × String)) (c : Command) :
    Except Violation (List (String × String)) :=
  match records.lookup c.recordName with
  | some earlier => .error (.sharedRecord earlier c.name c.recordName)
  | none =>
    if reservedRecordNames.contains c.recordName then
      .error (.reservedRecord c.recordName c.name)
    else if jsReservedWords.contains c.exportName then
      .error (.reservedExport c.exportName c.name)
    else .ok ((c.recordName, c.name) :: records)

/-- Judges the type of a field. -/
def checkType (foreignTypes : List String) (f : Field) : Except Violation Unit :=
  match f.type with
  | .foreign type =>
    if foreignTypes.contains type then .ok () else .error (.unknownType type f.name)
  | _ => .ok ()

/-- Judges a field of a command after the fields before it. -/
def checkField (foreignTypes : List String) (c : Command) (judged : JudgedFields) (f : Field) :
    Except Violation JudgedFields :=
  if judged.names.contains f.name then .error (.repeatedField f.name c.name)
  else if cppKeywords.contains f.name then .error (.keywordField f.name c.name)
  else match judged.locals.lookup (Text.capitalize f.name) with
    | some earlier => .error (.sameLocal earlier f.name c.name)
    | none =>
      match checkType foreignTypes f with
      | .error v => .error v
      | .ok () =>
        .ok ⟨judged.names ++ [f.name], (Text.capitalize f.name, f.name) :: judged.locals⟩

/-- Judges the fields of a command. -/
def checkFields (foreignTypes : List String) (c : Command) : Except Violation Unit :=
  (c.fields.foldlM (c.checkField foreignTypes) ⟨[], []⟩).map fun _ => ()

end Command

/-! ## All rules -/

namespace Schema

/-- Judges that there are commands, and their names. -/
def checkCommands (s : Schema) : Except Violation Unit :=
  if s.commands.isEmpty then .error .noCommands
  else (s.commands.foldlM Command.checkNames []).map fun _ => ()

/-- Accepts a schema without a violation, given the names of the foreign types, and reports the
first violation otherwise. The names of all commands are judged before any field is. -/
def verify (s : Schema) (foreignTypes : List String) : Except Violation Unit := do
  foreignTypes.forM checkForeign
  s.checkCommands
  s.commands.forM (Command.checkFields foreignTypes)

end Schema

end CommandSchema
