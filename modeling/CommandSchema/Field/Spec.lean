import CommandSchema.Field
import CommandSchema.Text.Identifier
import CommandSchema.Text.Visible

/-!
# Field specifications

A field is specified on one line: the name of its type, a space and its own name, then a question
mark if it is optional, brackets if it is an array, and an initializer after an equals sign with a
space on either side. Nothing else may stand on the line.

* `Field.ofSpec?`: the field of a specification.
* `Field.spec`: the specification of a field.
* `SpecError`: a specification that the grammar does not have.
-/

namespace CommandSchema

/-- A line that is no specification, with the field that it was to specify. -/
structure SpecError where
  command : String
  flag : String
  text : String
  deriving DecidableEq, Repr

/-- The error in words. -/
def SpecError.message (e : SpecError) : String :=
  "Invalid field spec " ++ Text.visible e.text ++ " for flag " ++ Text.visible e.flag ++
    " of command " ++ Text.visible e.command

namespace Field

/-- The name of a type and the text after it. -/
def readTypeName? (cs : List Char) : Option (List Char × List Char) :=
  match cs.span Text.isIdentifierRest with
  | (c :: name, rest) => if Text.isIdentifierStart c then some (c :: name, rest) else none
  | ([], _) => none

/-- The name of a member and the text after it: letters and digits, a letter first. -/
def readMemberName? (cs : List Char) : Option (List Char × List Char) :=
  match cs.span Char.isAlphanum with
  | (c :: name, rest) => if c.isAlpha then some (c :: name, rest) else none
  | ([], _) => none

/-- The mark of an optional field, if it stands here. -/
def readOptional : List Char → Bool × List Char
  | '?' :: cs => (true, cs)
  | cs => (false, cs)

/-- The mark of an array, if it stands here. -/
def readArray : List Char → Bool × List Char
  | '[' :: ']' :: cs => (true, cs)
  | cs => (false, cs)

/-- The rest of a specification: nothing, or an initializer, which fills its line. -/
def readInitial? : List Char → Option (Option (List Char))
  | [] => some none
  | ' ' :: '=' :: ' ' :: c :: cs =>
    if (c :: cs).contains '\n' then none else some (some (c :: cs))
  | _ => none

/-- The field that a specification writes under a flag. -/
def ofSpec? (flag text : String) : Option Field :=
  match readTypeName? text.toList with
  | some (type, ' ' :: cs) =>
    match readMemberName? cs with
    | some (name, cs) =>
      let (isOptional, cs) := readOptional cs
      let (isArray, cs) := readArray cs
      (readInitial? cs).map fun initial =>
        { flag, name := .ofList name, type := .ofName (.ofList type), isOptional, isArray,
          initial := initial.map String.ofList }
    | none => none
  | _ => none

/-- The field that a specification writes, or the error that names the command and the flag. -/
def parse (command flag text : String) : Except SpecError Field :=
  match ofSpec? flag text with
  | some f => .ok f
  | none => .error ⟨command, flag, text⟩

/-- The specification of a field. -/
def spec (f : Field) : String :=
  f.type.name ++ " " ++ f.name ++ (if f.isOptional then "?" else "") ++
    (if f.isArray then "[]" else "") ++
    match f.initial with
    | none => ""
    | some initial => " = " ++ initial

end Field

end CommandSchema
