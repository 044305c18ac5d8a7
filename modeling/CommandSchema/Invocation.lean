import CommandSchema.Record

/-!
# Invocations

A command with the record to run it on. Both the command line and the functions for scripts yield
one.

* `Invocation.toJson`: the invocation as JSON.
* `Record.setAll`: the record after a list of values has been supplied.
-/

namespace CommandSchema

/-- A command with the record to run it on. -/
structure Invocation where
  command : String
  record : Record
  deriving DecidableEq, Repr

/-- The invocation as JSON. -/
def Invocation.toJson (i : Invocation) : Json :=
  .object [("command", .string i.command), ("record", i.record.toJson)]

/-- Sets members one after the other, so the last value of a member counts. -/
def Record.setAll (r : Record) (values : List (String × Value)) : Record :=
  values.foldl (fun r v => r.set v.1 v.2) r

end CommandSchema
