import CommandSchema.Json.Basic
import CommandSchema.Record.Value
import CommandSchema.Field
import CommandSchema.Text.LeadingInteger
import CommandSchema.Text.Pieces

/-!
# Values from outside

How a value is made from a token of a command line or from a value of a script.

* `FieldType.ofToken`: a token as a value; every token is one.
* `FieldType.ofPieces`: pieces of a token as values; texts are taken over all at once.
* `Field.ofToken`: a token as the value of a field, which may be an array.
* `FieldType.ofJson`: a script's value, or the kind of value that was expected.
-/

namespace CommandSchema

/-- The first character of a token that stands for true, and for the order by time. -/
def truthy : Char := 't'

/-- What ends an element of an array inside a token. -/
def arraySeparator : Char := '|'

/-- The first character of a text; NUL if there is none. -/
def firstChar (s : String) : Char := s.toList.headD '\x00'

/-- The order that a text names by its first character. -/
def SortOrder.ofText (s : String) : SortOrder := if firstChar s = truthy then .time else .cost

namespace FieldType

/-- A token as a value of a type. -/
def ofToken (t : FieldType) (token : String) : Value :=
  match t with
  | .string => .string token
  | .int => .int (Text.leadingInt32 token)
  | .bool => .bool (firstChar token == truthy)
  | .char => .char (firstChar token)
  | .date => .date token
  | .instant => .instant token
  | .duration => .duration (Text.leadingInt32 token)
  | .sortType => .sort (.ofText token)
  | .foreign _ => .foreign token

/-- Pieces of a token as values of a type. Texts are taken over as they are. -/
def ofPieces (t : FieldType) (pieces : List String) : List Value :=
  match t with
  | .string => pieces.map .string
  | other => pieces.map other.ofToken

/-- Texts that are taken over all at once are those that are made one by one. -/
theorem ofPieces_eq_map (t : FieldType) (pieces : List String) :
    t.ofPieces pieces = pieces.map t.ofToken := by
  cases t <;> rfl

/-- The kind of script value that a type is made from. -/
def jsonKind : FieldType → Json.Kind
  | .int | .duration => .number
  | .bool => .boolean
  | .string | .char | .date | .instant | .sortType | .foreign _ => .string

/-- A text of a script as a value of a type, if the type is made from texts. -/
def ofText? (t : FieldType) (text : String) : Option Value :=
  match t with
  | .string => some (.string text)
  | .char => some (.char (firstChar text))
  | .date => some (.date text)
  | .instant => some (.instant text)
  | .sortType => some (.sort (.ofText text))
  | .foreign _ => some (.foreign text)
  | .int | .duration | .bool => none

/-- A number of a script as a value of a type, if the type is made from numbers. -/
def ofNumber? (t : FieldType) (number : Json.Number) : Option Value :=
  match t with
  | .int => some (.int number.toInt32)
  | .duration => some (.duration number.toInt32)
  | _ => none

/-- A script's value as a value of a type, if it has the kind that the type is made from. -/
def ofJson? (t : FieldType) : Json → Option Value
  | .string s => t.ofText? s
  | .number n => t.ofNumber? n
  | .boolean b => if t = .bool then some (.bool b) else none
  | _ => none

end FieldType

namespace Field

/-- The elements of an array inside a token. Empty ones do not count. -/
def tokenPieces (token : String) : List String :=
  (Text.filledPieces arraySeparator token.toList).map String.ofList

/-- A token as the value of a field. -/
def ofToken (f : Field) (token : String) : Value :=
  if f.isArray then .array (f.type.ofPieces (tokenPieces token)) else f.type.ofToken token

theorem ofToken_of_isArray {f : Field} (h : f.isArray = true) (token : String) :
    f.ofToken token = .array ((tokenPieces token).map f.type.ofToken) := by
  rw [ofToken, if_pos h, FieldType.ofPieces_eq_map]

theorem ofToken_of_not_isArray {f : Field} (h : f.isArray = false) (token : String) :
    f.ofToken token = f.type.ofToken token := by
  rw [ofToken, h, if_neg (by decide)]

end Field

end CommandSchema
