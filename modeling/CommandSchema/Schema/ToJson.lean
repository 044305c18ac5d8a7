import CommandSchema.Json.Printer
import CommandSchema.Schema

/-!
# Schemas in JSON

* `Schema.toJson`: a schema with everything that its document says.
* `Schema.dump`: the same as text.
-/

namespace CommandSchema

/-- A field as JSON. -/
def Field.toJson (f : Field) : Json :=
  .object [("flag", .string f.flag), ("name", .string f.name), ("type", .string f.type.name),
    ("is_optional", .boolean f.isOptional), ("is_array", .boolean f.isArray),
    ("default", .ofOption f.initial)]

/-- A command as JSON. -/
def Command.toJson (c : Command) : Json :=
  .object [("name", .string c.name), ("fields", .array (c.fields.map Field.toJson))]

namespace Schema

/-- A schema as JSON. -/
def toJson (s : Schema) : Json := .object [("commands", .array (s.commands.map Command.toJson))]

/-- A schema as text. -/
def dump (s : Schema) : String := s.toJson.pretty

end Schema

end CommandSchema
