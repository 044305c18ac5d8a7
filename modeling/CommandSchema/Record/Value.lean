import CommandSchema.Json.Printer
import CommandSchema.Text.Visible

/-!
# Values

What a member of a record can hold: one variant for every type of a field, and arrays.

* `Value.asInt`, `Value.asText`, … : the content of a value, with a neutral answer for a value of
  another kind.
* `Value.item`: an element of an array, or why there is none.
* `Value.toJson`: the value as plain JSON, without its kind.
* `Value.visible`: the value for a diagnostic.
-/

namespace CommandSchema

/-- What a list of offers is sorted by. -/
inductive SortOrder where
  | time
  | cost
  deriving DecidableEq, Repr

/-- The name of an order in JSON. -/
def SortOrder.name : SortOrder → String
  | .time => "time"
  | .cost => "cost"

/-- The name of an order in generated code. -/
def SortOrder.constant : SortOrder → String
  | .time => "kTime"
  | .cost => "kCost"

/-- A value of a member. -/
inductive Value where
  | string (text : String)
  | int (number : Int32)
  | bool (flag : Bool)
  | char (character : Char)
  | date (text : String)
  | instant (text : String)
  | duration (number : Int32)
  | sort (order : SortOrder)
  /-- A value of a foreign type, as it was written. -/
  | foreign (text : String)
  | array (items : List Value)
  deriving Repr

namespace Value

/-! ## Equality -/

mutual

/-- The same value. -/
def same : Value → Value → Bool
  | .string a, .string b => a == b
  | .int a, .int b => a == b
  | .bool a, .bool b => a == b
  | .char a, .char b => a == b
  | .date a, .date b => a == b
  | .instant a, .instant b => a == b
  | .duration a, .duration b => a == b
  | .sort a, .sort b => a == b
  | .foreign a, .foreign b => a == b
  | .array a, .array b => sameItems a b
  | _, _ => false

/-- The same elements in the same order. -/
def sameItems : List Value → List Value → Bool
  | [], [] => true
  | a :: as, b :: bs => same a b && sameItems as bs
  | _, _ => false

end

mutual

/-- Values are the same only if they are equal. -/
theorem same_iff : (a b : Value) → (same a b = true ↔ a = b)
  | .array a, .array b => by simp [same, sameItems_iff a b]
  | .array _, .string _ | .array _, .int _ | .array _, .bool _ | .array _, .char _
  | .array _, .date _ | .array _, .instant _ | .array _, .duration _ | .array _, .sort _
  | .array _, .foreign _ => by simp [same]
  | .string _, b | .int _, b | .bool _, b | .char _, b | .date _, b | .instant _, b
  | .duration _, b | .sort _, b | .foreign _, b => by cases b <;> simp [same]

theorem sameItems_iff : (as bs : List Value) → (sameItems as bs = true ↔ as = bs)
  | [], [] => by simp [sameItems]
  | [], _ :: _ => by simp [sameItems]
  | _ :: _, [] => by simp [sameItems]
  | a :: as, b :: bs => by simp [sameItems, same_iff a b, sameItems_iff as bs]

end

instance : DecidableEq Value := fun a b => decidable_of_iff _ (same_iff a b)

/-! ## Content -/

/-- The number of an integer or a duration; zero otherwise. -/
def asInt : Value → Int32
  | .int n | .duration n => n
  | _ => 0

/-- The truth of a boolean; false otherwise. -/
def asBool : Value → Bool
  | .bool b => b
  | _ => false

/-- The character of a character; NUL otherwise. -/
def asChar : Value → Char
  | .char c => c
  | _ => '\x00'

/-- The text of a string, a date, an instant or a foreign value; empty otherwise. -/
def asText : Value → String
  | .string s | .date s | .instant s | .foreign s => s
  | _ => ""

/-- The elements of an array; none otherwise. -/
def asArray : Value → List Value
  | .array vs => vs
  | _ => []

/-- The order of a sort order. -/
def asSort? : Value → Option SortOrder
  | .sort o => some o
  | _ => none

/-- The number of elements; zero for a value that is no array. -/
def size (v : Value) : Nat := v.asArray.length

/-- There are no elements. -/
def isEmpty (v : Value) : Bool := v.size == 0

/-- Why there is no element at an index. -/
inductive IndexError where
  | notArray (index : Nat)
  | outOfBounds (size index : Nat)
  deriving DecidableEq, Repr

/-- The error in words. -/
def IndexError.message : IndexError → String
  | .notArray index => "index " ++ toString index ++ " into a non-array value"
  | .outOfBounds size index =>
    "index out of bounds: the len is " ++ toString size ++ " but the index is " ++ toString index

/-- The element of an array at an index. -/
def item (index : Nat) : Value → Except IndexError Value
  | .array vs =>
    match vs[index]? with
    | some v => .ok v
    | none => .error (.outOfBounds vs.length index)
  | _ => .error (.notArray index)

/-! ## JSON -/

mutual

/-- The value as JSON. -/
def toJson : Value → Json
  | .string s | .date s | .instant s | .foreign s => .string s
  | .int n | .duration n => .integer n.toInt
  | .bool b => .boolean b
  | .char c => .string (.singleton c)
  | .sort o => .string o.name
  | .array vs => .array (toJsonItems vs)

/-- Elements as JSON. -/
def toJsonItems : List Value → List Json
  | [] => []
  | v :: vs => v.toJson :: toJsonItems vs

end

/-! ## Diagnostics -/

/-- A number in decimal. -/
def numberText (n : Int32) : String := .ofList (Json.integerText n.toInt)

mutual

/-- The value for a diagnostic. -/
def visible : Value → String
  | .string s | .foreign s => Text.visible s
  | .int n => numberText n
  | .bool true => "true"
  | .bool false => "false"
  | .char c => Text.visibleChar c
  | .date s => "Date(" ++ Text.visible s ++ ")"
  | .instant s => "Instant(" ++ Text.visible s ++ ")"
  | .duration n => "Duration(" ++ numberText n ++ ")"
  | .sort o => o.constant
  | .array vs => "[" ++ visibleItems vs ++ "]"

/-- Elements for a diagnostic, with commas between them. -/
def visibleItems : List Value → String
  | [] => ""
  | [v] => v.visible
  | v :: w :: vs => v.visible ++ ", " ++ visibleItems (w :: vs)

end

end Value

end CommandSchema
