import CommandSchema.Layout

/-!
# Structured code

The body of a generated function as a tree: instructions, blocks under a head, and chains of which
the first arm whose test holds is run. What instructions, heads and tests there are is left to the
function; `Code.steps` writes any of them, given how each is written.

* `Code`, `Arms`: the code of a block and the arms of a chain.
* `Code.steps`: the code laid out, with every block one level in.
-/

namespace CommandSchema.Generated

open Layout

mutual

/-- The code of a block. -/
inductive Code (I H T : Type) where
  | done
  | run (instruction : I) (next : Code I H T)
  /-- A block under a head, which says when and how often it is run. -/
  | block (head : H) (body next : Code I H T)
  /-- A chain of arms. -/
  | choose (arms : Arms I H T) (next : Code I H T)

/-- The arms of a chain: tests with their code, and the code where no test holds. -/
inductive Arms (I H T : Type) where
  | otherwise (body : Code I H T)
  | arm (test : T) (body : Code I H T) (rest : Arms I H T)

end

variable {I H T : Type}

/-- Instructions one after the other. -/
def Code.runAll (instructions : List I) (next : Code I H T) : Code I H T :=
  instructions.foldr .run next

/-- Arms in a list, before the code where no test holds. -/
def Arms.ofList (arms : List (T × Code I H T)) (otherwise : Code I H T) : Arms I H T :=
  arms.foldr (fun a rest => .arm a.1 a.2 rest) (.otherwise otherwise)

/-- How code is written: an instruction on a line of its own, a head with its opening brace, and a
test without its parentheses. -/
structure Writing (I H T : Type) where
  instruction : I → String
  head : H → String
  test : T → String

variable (w : Writing I H T)

mutual

/-- The code laid out. -/
def Code.steps : Code I H T → List Step
  | .done => []
  | .run i next => .line (w.instruction i) :: next.steps
  | .block h body next => .opening (w.head h) :: body.steps ++ .closing "\x7d" :: next.steps
  | .choose arms next => arms.steps true ++ next.steps

/-- The arms laid out. An arm that is not the first one closes the one before it. -/
def Arms.steps (isFirst : Bool) : Arms I H T → List Step
  | .otherwise body => .dedent :: .opening "\x7d else \x7b" :: body.steps ++ [.closing "\x7d"]
  | .arm test body rest =>
    (if isFirst then [.opening ("if (" ++ w.test test ++ ") \x7b")]
      else [.dedent, .opening ("\x7d else if (" ++ w.test test ++ ") \x7b")]) ++
      body.steps ++ rest.steps false

end

end CommandSchema.Generated
