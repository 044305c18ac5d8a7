import CommandSchema.Invocation.Options

/-!
# Calls of a script

A script calls exports one after the other, and one handler runs all invocations. The handler has
a state that lasts from call to call; a call that cannot be bound does not reach it.

* `Handler`: what runs an invocation.
* `Schema.call`: one call.
* `Schema.callAll`: the answers to a list of calls and the state that they leave.
-/

namespace CommandSchema

/-- What runs an invocation: it answers or fails with a message, and goes to another state. -/
abbrev Handler (σ ρ : Type) := Invocation → σ → Except String ρ × σ

namespace Schema

variable {σ ρ : Type}

/-- One call of an export. -/
def call (s : Schema) (handler : Handler σ ρ) (exportName : String) (v : Json) (state : σ) :
    Except CallError ρ × σ :=
  match s.bind exportName v with
  | .error e => (.error e, state)
  | .ok invocation =>
    let (answer, state) := handler invocation state
    (answer.mapError .handler, state)

/-- Calls one after the other. -/
def callAll (s : Schema) (handler : Handler σ ρ) (state : σ) :
    List (String × Json) → List (Except CallError ρ) × σ
  | [] => ([], state)
  | (exportName, v) :: calls =>
    let (answer, state) := s.call handler exportName v state
    let (answers, state) := s.callAll handler state calls
    (answer :: answers, state)

end Schema

end CommandSchema
