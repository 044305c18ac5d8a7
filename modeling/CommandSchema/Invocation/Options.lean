import CommandSchema.Invocation
import CommandSchema.Invocation.Convert

/-!
# Options of a script

A script calls a command with an object whose members supply the fields by their names. A member
that is null counts as absent, and members that name no field do not matter. A command without
fields does not look at what it is called with.

* `Command.bind`: the record of a command and a script's value.
* `Schema.bind`: the invocation of an export and a script's value.
-/

namespace CommandSchema

/-- Why a script's value supplies no record. -/
inductive BindError where
  | notObject (found : Json.Kind)
  | missingField (field : String)
  | typeMismatch (field : String) (expected found : Json.Kind)
  deriving DecidableEq, Repr

/-- The error in words. -/
def BindError.message : BindError → String
  | .notObject found => "Expected an object of options, got " ++ found.name
  | .missingField field => "Missing required field " ++ Text.visible field
  | .typeMismatch field expected found =>
    "Field " ++ Text.visible field ++ " expects " ++ expected.name ++ ", got " ++ found.name

/-- Why a call does not reach a command or does not come back from it. -/
inductive CallError where
  | unknownExport (name : String)
  | bind (error : BindError)
  /-- The command failed, with a message of its own. -/
  | handler (message : String)
  deriving DecidableEq, Repr

/-- The error in words. -/
def CallError.message : CallError → String
  | .unknownExport name => "No function is exported as " ++ Text.visible name
  | .bind error => error.message
  | .handler message => "Error: " ++ message

/-- A script's value as a value of a type. `field` is named if it cannot be one. -/
def FieldType.ofJson (t : FieldType) (field : String) (v : Json) : Except BindError Value :=
  match t.ofJson? v with
  | some value => .ok value
  | none => .error (.typeMismatch field t.jsonKind v.kind)

namespace Field

/-- A script's value as the value of a field. -/
def ofJson (f : Field) (v : Json) : Except BindError Value :=
  if f.isArray then
    match v with
    | .array items => (items.mapM (f.type.ofJson f.name)).map Value.array
    | other => .error (.typeMismatch f.name .array other.kind)
  else f.type.ofJson f.name v

/-- The member of an object that supplies a field; null supplies nothing. -/
def member? (f : Field) (members : List (String × Json)) : Option Json :=
  match Json.member? members f.name with
  | some .null | none => none
  | some v => some v

/-- The value that an object supplies for a field, if it does. -/
def bind (members : List (String × Json)) (f : Field) : Except BindError (Option Value) :=
  match f.member? members with
  | some v => (f.ofJson v).map some
  | none => if f.mayBeAbsent then .ok none else .error (.missingField f.name)

end Field

namespace Command

/-- The values that an object supplies, with the names of their members. -/
def bindFields (members : List (String × Json)) : List Field →
    Except BindError (List (String × Value))
  | [] => .ok []
  | f :: fields => do
    let value ← f.bind members
    let values ← bindFields members fields
    return (value.map fun v => (f.name, v)).toList ++ values

/-- The record that a script's value supplies. -/
def bind (c : Command) (v : Json) : Except BindError Record :=
  if c.fields.isEmpty then .ok c.initialRecord
  else match v with
    | .object members => (bindFields members c.fields).map c.initialRecord.setAll
    | other => .error (.notObject other.kind)

end Command

/-- The invocation of an export and a script's value. -/
def Schema.bind (s : Schema) (exportName : String) (v : Json) : Except CallError Invocation :=
  match s.commandByExport? exportName with
  | none => .error (.unknownExport exportName)
  | some c =>
    match c.bind v with
    | .error e => .error (.bind e)
    | .ok record => .ok { command := c.name, record }

end CommandSchema
