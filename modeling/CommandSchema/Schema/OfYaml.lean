import CommandSchema.Field.Spec
import CommandSchema.Schema
import CommandSchema.Text.Blank
import CommandSchema.Text.Quoted
import CommandSchema.Yaml.Value

/-!
# Schemas in YAML

A schema is written as a mapping from command names to mappings from flags to field
specifications. A command without fields may map to nothing, and so may the whole document.

* `Schema.ofYaml`: the schema of a value, or the first fault in the order of the document.
* `Schema.parse`: the schema of a text.
-/

namespace CommandSchema

/-! ## Faults -/

/-- What a value is, for the eyes of a reader. -/
def Yaml.Value.description : Yaml.Value → String
  | .null => "null"
  | .boolean _ => "a boolean"
  | .number _ => "a number"
  | .text _ => "a string"
  | .sequence _ => "a sequence"
  | .mapping _ => "a mapping"
  | .tagged .. => "a tagged value"

/-- A document that is YAML and no schema. The values in question are given by what they are. -/
inductive ShapeError where
  /-- The document is no mapping. -/
  | root (found : String)
  /-- The name of a command is no text. -/
  | commandKey (found : String)
  /-- The name of a command is no identifier. -/
  | commandName (name : String)
  /-- A command has no mapping of flags. -/
  | flags (command found : String)
  /-- A flag is no text. -/
  | flagKey (found : String)
  /-- A flag is empty or holds white space. -/
  | flag (flag command : String)
  /-- A specification is no text. -/
  | spec (flag command found : String)
  deriving DecidableEq, Repr

/-- The fault in words. -/
def ShapeError.message : ShapeError → String
  | .root found => "Expected a mapping of commands but found " ++ found
  | .commandKey found => "Expected a string command name but found " ++ found
  | .commandName name => "Invalid command name " ++ Text.quote name
  | .flags command found =>
    "Expected a mapping of flags for command " ++ Text.quote command ++ " but found " ++ found
  | .flagKey found => "Expected a string flag but found " ++ found
  | .flag name command =>
    "Invalid flag " ++ Text.quote name ++ " for command " ++ Text.quote command
  | .spec name command found =>
    "The spec for flag " ++ Text.quote name ++ " of command " ++ Text.quote command ++
      " must be a string but found " ++ found

/-- Why a text is no schema. -/
inductive ParseError where
  /-- The text is no YAML, or a value that cannot be held. -/
  | yaml
  | shape (fault : ShapeError)
  | spec (fault : SpecError)
  deriving DecidableEq, Repr

namespace Schema

/-! ## Reading -/

/-- A flag that can be told apart on a command line: not empty and without white space. -/
def isFlag (flag : String) : Bool := !flag.isEmpty && !flag.toList.any Text.isBlank

/-- A field from its entry in the mapping of a command. -/
def readField (command : String) (entry : Yaml.Value × Yaml.Value) : Except ParseError Field :=
  match entry with
  | (.text flag, spec) =>
    if !isFlag flag then .error (.shape (.flag flag command))
    else match spec with
      | .text spec => (Field.parse command flag spec).mapError .spec
      | other => .error (.shape (.spec flag command other.description))
  | (other, _) => .error (.shape (.flagKey other.description))

/-- The fields of a command from its mapping. -/
def readFields (command : String) : Yaml.Value → Except ParseError (List Field)
  | .mapping entries => entries.mapM (readField command)
  | .null => .ok []
  | other => .error (.shape (.flags command other.description))

/-- A command from its entry in the document. -/
def readCommand (entry : Yaml.Value × Yaml.Value) : Except ParseError Command :=
  match entry with
  | (.text name, flags) =>
    if Text.isIdentifier name then
      (readFields name flags).map fun fields => { name, fields }
    else .error (.shape (.commandName name))
  | (other, _) => .error (.shape (.commandKey other.description))

/-- The schema of a document. -/
def ofYaml : Yaml.Value → Except ParseError Schema
  | .mapping entries => (entries.mapM readCommand).map fun commands => { commands }
  | .null => .ok { commands := [] }
  | other => .error (.shape (.root other.description))

/-- The schema of a text. -/
def parse (text : String) : Except ParseError Schema :=
  match Yaml.Value.read? text with
  | none => .error .yaml
  | some v => ofYaml v

end Schema

end CommandSchema
