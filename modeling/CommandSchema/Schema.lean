import CommandSchema.Field
import CommandSchema.Text.Case

/-!
# Command schemas

A schema is a list of commands in a fixed order, each with its fields in a fixed order.

* `Command.recordName`, `Command.exportName`: the names that a command goes by in generated code.
* `Schema.command?`, `Schema.commandByExport?`, `Command.field?`, `Command.fieldByFlag?`: lookups,
  of which the first match counts.
-/

namespace CommandSchema

/-- A command: a name and the fields of its record. -/
structure Command where
  name : String
  fields : List Field
  deriving DecidableEq, Repr

namespace Command

/-- The name of the command's record. -/
def recordName (c : Command) : String := Text.pascal c.name

/-- The name of the function that a script calls for the command. -/
def exportName (c : Command) : String := Text.camel c.name

/-- The name of the type of that function's argument. -/
def optionsName (c : Command) : String := c.recordName ++ "Options"

/-- The field with a flag. -/
def fieldByFlag? (c : Command) (flag : String) : Option Field :=
  c.fields.find? (·.flag == flag)

/-- The field with a name. -/
def field? (c : Command) (name : String) : Option Field := c.fields.find? (·.name == name)

/-- The fields that a caller has to supply. -/
def requiredFields (c : Command) : List Field := c.fields.filter (·.isRequired)

end Command

/-- Commands in the order that every generated file keeps. -/
structure Schema where
  commands : List Command
  deriving DecidableEq, Repr

namespace Schema

/-- The command with a name. -/
def command? (s : Schema) (name : String) : Option Command := s.commands.find? (·.name == name)

/-- The command that a script calls by a name. -/
def commandByExport? (s : Schema) (name : String) : Option Command :=
  s.commands.find? (·.exportName == name)

/-- The names that a script calls the commands by. -/
def exports (s : Schema) : List String := s.commands.map (·.exportName)

end Schema

end CommandSchema
