import CommandSchema.Json.Number

/-!
# JSON values

A JSON value with its objects in order.

* `Json.member?`: the value under a key, the first one if the key occurs twice.
* `Json.kind`: the name of what a value is, as a script host would say it.
-/

namespace CommandSchema

/-- A JSON value. -/
inductive Json where
  | null
  | boolean (value : Bool)
  | number (value : Json.Number)
  | string (value : String)
  | array (items : List Json)
  | object (members : List (String × Json))

namespace Json

/-- The value under a key. -/
def member? (members : List (String × Json)) (key : String) : Option Json :=
  members.lookup key

/-- An integer. -/
def integer (n : Int) : Json := .number (.integer n)

/-- A text, or null where there is none. -/
def ofOption : Option String → Json
  | none => .null
  | some s => .string s

/-- What a value is. -/
inductive Kind where
  | null
  | boolean
  | number
  | string
  | array
  | object
  deriving DecidableEq, Repr

/-- What the value is. -/
def kind : Json → Kind
  | .null => .null
  | .boolean _ => .boolean
  | .number _ => .number
  | .string _ => .string
  | .array _ => .array
  | .object _ => .object

/-- The name of a kind. -/
def Kind.name : Kind → String
  | .null => "null"
  | .boolean => "boolean"
  | .number => "number"
  | .string => "string"
  | .array => "array"
  | .object => "object"

end Json

end CommandSchema
