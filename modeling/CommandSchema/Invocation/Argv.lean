import CommandSchema.Invocation
import CommandSchema.Invocation.Convert

/-!
# Argument vectors

An argument vector names a command and then supplies fields, each by its flag and a token. A field
may be supplied more than once, and the last token counts. A command without fields takes whatever
follows its name.

* `Command.readPairs`: the fields that are supplied, with their tokens.
* `Schema.parseArgv`: the invocation of a vector.
* `Schema.parseLine`: the invocation of a line, whose arguments stand between spaces.
-/

namespace CommandSchema

/-- Why a vector is rejected. -/
inductive ArgvError where
  /-- The vector does not even name a command. -/
  | empty
  | unknownCommand (name : String)
  | unknownFlag (command flag : String)
  /-- A flag is the last argument. -/
  | missingValue (command flag : String)
  /-- Fields that have to be supplied are not. -/
  | missingFields (command : String) (fields : List String)
  deriving DecidableEq, Repr

/-- The error in words. -/
def ArgvError.message : ArgvError → String
  | .empty => "Empty argument vector"
  | .unknownCommand name => "Unknown command " ++ Text.visible name
  | .unknownFlag command flag =>
    "Unknown flag " ++ Text.visible flag ++ " for command " ++ Text.visible command
  | .missingValue command flag =>
    "Flag " ++ Text.visible flag ++ " of command " ++ Text.visible command ++ " expects a value"
  | .missingFields command fields =>
    "Command " ++ Text.visible command ++ " is missing mandatory fields: " ++
      String.intercalate ", " fields

namespace Command

/-- The fields that arguments supply, each with its token. -/
def readPairs (c : Command) : List String → Except ArgvError (List (Field × String))
  | [] => .ok []
  | [flag] =>
    match c.fieldByFlag? flag with
    | none => .error (.unknownFlag c.name flag)
    | some _ => .error (.missingValue c.name flag)
  | flag :: token :: args =>
    match c.fieldByFlag? flag with
    | none => .error (.unknownFlag c.name flag)
    | some f => (c.readPairs args).map ((f, token) :: ·)

/-- The fields that a caller has to supply and that are not among those supplied. -/
def missingFields (c : Command) (supplied : List Field) : List Field :=
  c.requiredFields.filter fun f => !supplied.any (·.name == f.name)

/-- The record that arguments supply. -/
def readRecord (c : Command) (args : List String) : Except ArgvError Record :=
  if c.fields.isEmpty then .ok c.initialRecord
  else match c.readPairs args with
    | .error e => .error e
    | .ok pairs =>
      match c.missingFields (pairs.map (·.1)) with
      | [] => .ok (c.initialRecord.setAll (pairs.map fun p => (p.1.name, p.1.ofToken p.2)))
      | missing => .error (.missingFields c.name (missing.map (·.name)))

end Command

namespace Schema

/-- The invocation of an argument vector. -/
def parseArgv (s : Schema) : List String → Except ArgvError Invocation
  | [] => .error .empty
  | name :: args =>
    match s.command? name with
    | none => .error (.unknownCommand name)
    | some c => (c.readRecord args).map fun record => { command := c.name, record }

/-- The arguments of a line: what stands between spaces. Empty arguments do not count. -/
def lineArgv (line : String) : List String :=
  (Text.filledPieces ' ' line.toList).map String.ofList

/-- The invocation of a line. -/
def parseLine (s : Schema) (line : String) : Except ArgvError Invocation :=
  s.parseArgv (lineArgv line)

end Schema

end CommandSchema
