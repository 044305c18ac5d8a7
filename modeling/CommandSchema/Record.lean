import CommandSchema.Record.Value
import CommandSchema.Schema

/-!
# Records

A record is what a command runs on: a named list of members in the order of their declaration,
each with a slot that may hold a value.

* `Record.declare`, `Record.set`: the two ways to change a record. Neither moves a member.
* `Record.get?`, `Record.value?`: what a member holds.
* `Command.initialRecord`: the record of a command before anything has been supplied.
-/

namespace CommandSchema

/-- What a member holds. -/
inductive Slot where
  | unset
  /-- The value of an initializer, which only the generated program knows. -/
  | initial (expression : String)
  | set (value : Value)
  deriving DecidableEq, Repr

namespace Slot

/-- The value of a slot that has been set. -/
def value? : Slot → Option Value
  | .set v => some v
  | _ => none

/-- The slot has been set. -/
def isSet (s : Slot) : Bool := s.value?.isSome

/-- The slot as JSON: null if it is unset. -/
def toJson : Slot → Json
  | .unset => .null
  | .initial expression => .object [("default", .string expression)]
  | .set v => v.toJson

end Slot

/-- A named list of members. -/
structure Record where
  name : String
  members : List (String × Slot) := []
  deriving DecidableEq, Repr

namespace Record

/-- The slot of a member. -/
def get? (r : Record) (name : String) : Option Slot := r.members.lookup name

/-- The value of a member that has been set. -/
def value? (r : Record) (name : String) : Option Value := r.get? name >>= Slot.value?

/-- The record has a member with a name. -/
def has (r : Record) (name : String) : Bool := r.members.any (·.1 == name)

/-- Members with another slot for the first one with a name. -/
def replace (name : String) (slot : Slot) : List (String × Slot) → List (String × Slot)
  | [] => []
  | m :: ms => if m.1 = name then (name, slot) :: ms else m :: replace name slot ms

/-- Gives a member a slot. A member that is not there yet becomes the last one. -/
def declare (r : Record) (name : String) (slot : Slot) : Record :=
  if r.has name then { r with members := replace name slot r.members }
  else { r with members := r.members ++ [(name, slot)] }

/-- Sets a member, if the record has it. -/
def set? (r : Record) (name : String) (value : Value) : Option Record :=
  if r.has name then some { r with members := replace name (.set value) r.members } else none

/-- Sets a member. A record without that member stays as it is. -/
def set (r : Record) (name : String) (value : Value) : Record := (r.set? name value).getD r

/-- The number of members. -/
def size (r : Record) : Nat := r.members.length

/-- There are no members. -/
def isEmpty (r : Record) : Bool := r.members.isEmpty

/-- The record as a JSON object, with its members in order. -/
def toJson (r : Record) : Json := .object (r.members.map fun m => (m.1, m.2.toJson))

end Record

/-- The slot of a field that has not been supplied: its initializer if it has one, else no elements
if it is an array. -/
def Field.initialSlot (f : Field) : Slot :=
  match f.initial with
  | some expression => .initial expression
  | none => if f.isArray then .set (.array []) else .unset

/-- The record of a command before anything has been supplied. -/
def Command.initialRecord (c : Command) : Record :=
  c.fields.foldl (fun r f => r.declare f.name f.initialSlot) { name := c.recordName }

end CommandSchema
