import CommandSchema.Invocation.Convert

/-!
# Types in generated code

How the type of a field is written in the generated files, and the expressions that make a value
of a type there.

* `Field.cppType`, `Field.tsType`: the declared type of a member.
* `Field.declaration`: the declaration of a member of a C++ struct.
* `FieldType.ofTokenText`, `FieldType.ofDynamicText`: the C++ expressions that make a value from a
  token of a command line and from a value of a script.
-/

namespace CommandSchema

namespace FieldType

/-- The C++ type. -/
def cppType : FieldType → String
  | .string => "std::string"
  | other => other.name

/-- The TypeScript type. A foreign value is handed over as a text. -/
def tsType : FieldType → String
  | .string | .char | .foreign _ => "string"
  | .int => "number"
  | .bool => "boolean"
  | .date => "DateString"
  | other => other.name

/-- The C++ test that a text is truthy. -/
def truthyText (expression : String) : String :=
  expression ++ "[0] == '" ++ .singleton truthy ++ "'"

/-- The C++ expression that makes a value of a C string. -/
def ofTokenText (t : FieldType) (expression : String) : String :=
  match t with
  | .int => "atoi(" ++ expression ++ ")"
  | .bool => truthyText expression
  | .char => "*" ++ expression
  | .sortType => truthyText expression ++ " ? kTime : kCost"
  | .duration => "Duration(atoi(" ++ expression ++ "))"
  | .date | .instant => t.name ++ "(" ++ expression ++ ")"
  | .string | .foreign _ => expression

/-- The C++ expression that makes a value of a script's value. -/
def ofDynamicText (t : FieldType) (expression : String) : String :=
  match t with
  | .int => "CPP_INT(" ++ expression ++ ")"
  | .bool => "CPP_BOOL(" ++ expression ++ ")"
  | .char => "CPP_STR(" ++ expression ++ ")[0]"
  | .sortType => truthyText ("CPP_STR(" ++ expression ++ ")") ++ " ? kTime : kCost"
  | .duration => "Duration(CPP_INT(" ++ expression ++ "))"
  | .date | .instant => t.name ++ "(CPP_STR(" ++ expression ++ ").data())"
  | .string | .foreign _ => "CPP_STR(" ++ expression ++ ")"

end FieldType

namespace Field

/-- The C++ type of a member. -/
def cppType (f : Field) : String :=
  if f.isArray then "Vector<" ++ f.type.cppType ++ ">"
  else if f.isOptional then "Optional<" ++ f.type.cppType ++ ">"
  else f.type.cppType

/-- The TypeScript type of a member. -/
def tsType (f : Field) : String :=
  if f.isArray then f.type.tsType ++ "[]" else f.type.tsType

/-- The declaration of a member of a C++ struct, with its initializer. -/
def declaration (f : Field) : String :=
  match f.initial with
  | some expression => f.cppType ++ " " ++ f.name ++ " = " ++ expression ++ ";"
  | none => f.cppType ++ " " ++ f.name ++ ";"

end Field

end CommandSchema
