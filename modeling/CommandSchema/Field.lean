/-!
# Fields

A field of a command: a typed member of the command's record that is named by a flag on the
command line and by its own name everywhere else.

* `FieldType`: the built-in types and the types that only the generated program knows.
* `FieldType.ofName`, `FieldType.name`: a type by its name, and back.
* `Field`: a field, with what its specification says.
* `Field.isRequired`: a caller has to supply the field.
-/

namespace CommandSchema

/-- The type of a field, or of its elements if it is an array. -/
inductive FieldType where
  | string
  | int
  | bool
  | char
  | date
  | instant
  | duration
  | sortType
  /-- A type that the generated program passes through, known here by its name alone. -/
  | foreign (name : String)
  deriving DecidableEq, Repr

namespace FieldType

/-- The names that are no foreign types. -/
def builtinNames : List String :=
  ["string", "int", "bool", "char", "Date", "Instant", "Duration", "SortType"]

/-- The type with a name. -/
def ofName : String → FieldType
  | "string" => .string
  | "int" => .int
  | "bool" => .bool
  | "char" => .char
  | "Date" => .date
  | "Instant" => .instant
  | "Duration" => .duration
  | "SortType" => .sortType
  | other => .foreign other

/-- The name of a type. -/
def name : FieldType → String
  | .string => "string"
  | .int => "int"
  | .bool => "bool"
  | .char => "char"
  | .date => "Date"
  | .instant => "Instant"
  | .duration => "Duration"
  | .sortType => "SortType"
  | .foreign other => other

/-- The type is known by its name alone. -/
def isForeign : FieldType → Bool
  | .foreign _ => true
  | _ => false

/-- A type is found again under its own name, unless a foreign type hides behind the name of a
built-in one. -/
theorem ofName_name (t : FieldType) (h : ∀ n, t = .foreign n → n ∉ builtinNames) :
    ofName t.name = t := by
  cases t with
  | foreign n =>
    have hn := h n rfl
    simp only [builtinNames, List.mem_cons, List.not_mem_nil, or_false, not_or] at hn
    simp only [name]
    unfold ofName
    split <;> simp_all
  | _ => rfl

/-- The name of the type with a name is that name. -/
@[simp] theorem name_ofName (n : String) : (ofName n).name = n := by
  unfold ofName
  split <;> rfl

end FieldType

/-- A field of a command. -/
structure Field where
  /-- What names the field on the command line. -/
  flag : String
  /-- What names the field in records, in options and in generated code. -/
  name : String
  type : FieldType
  isOptional : Bool
  isArray : Bool
  /-- The initializer of the member, an expression of the generated program. -/
  initial : Option String
  deriving DecidableEq, Repr

namespace Field

/-- A caller may leave the field out: it is optional or has an initializer. -/
def mayBeAbsent (f : Field) : Bool := f.isOptional || f.initial.isSome

/-- A caller has to supply the field. -/
def isRequired (f : Field) : Bool := !f.mayBeAbsent

end Field

end CommandSchema
