import CommandSchema.CommandLine.Argument

/-!
# Requests

What a command line asks for: an action, the files that it reads, and what else it needs. Options
may stand in any order, but none of them twice. Two dashes end the options; the action that parses
an argument vector takes it from there, and no other takes anything.

* `Request.ofArgs?`: the request of a command line, unless it is malformed.
-/

namespace CommandSchema.CommandLine

/-- The files that describe a schema. -/
structure Inputs where
  /-- The path of the schema. -/
  schema : String
  /-- The path of the configuration. -/
  config : Option String
  deriving DecidableEq, Repr

/-- What a command line asks for. -/
inductive Request where
  /-- Writes the generated files into a directory. -/
  | generate (inputs : Inputs) (output : String)
  /-- Tells whether a schema keeps all rules. -/
  | check (inputs : Inputs)
  /-- Shows a schema in JSON. -/
  | dump (inputs : Inputs)
  /-- Shows the invocation of an argument vector. -/
  | parse (inputs : Inputs) (argv : List String)
  /-- Shows the invocation of an export with options in JSON. -/
  | bind (inputs : Inputs) (exportName json : String)
  deriving DecidableEq, Repr

/-- The values that options have been given. -/
abbrev Given := List (OptionName × String)

namespace Given

/-- Gives an option a value, unless it has one already or cannot have this one. -/
def add? (given : Given) (name : OptionName) (value : String) : Option Given :=
  if (given.lookup name).isSome || (name.isPath && value.isEmpty) then none
  else some ((name, value) :: given)

/-- The files that the options name. -/
def inputs? (given : Given) : Option Inputs :=
  (given.lookup .input).map fun schema => { schema, config := given.lookup .config }

end Given

/-- Reads arguments up to two dashes. The second part is what follows them. -/
def readOptions? (given : Given) : List String → Option (Given × List String)
  | [] => some (given, [])
  | arg :: args =>
    if arg = "--" then some (given, args)
    else match Argument.ofText? arg with
      | none => none
      | some .verbose => readOptions? given args
      | some (.option name value) =>
        match given.add? name value with
        | none => none
        | some given => readOptions? given args
      | some (.pending name) =>
        match args with
        | [] => none
        | value :: args =>
          match if isValue value then given.add? name value else none with
          | none => none
          | some given => readOptions? given args

/-- An action of the program. -/
inductive Action where
  | generate
  | check
  | dump
  | parse
  | bind
  deriving DecidableEq, Repr

namespace Action

/-- The action with a name. -/
def ofName? : String → Option Action
  | "generate" => some .generate
  | "check" => some .check
  | "dump" => some .dump
  | "parse" => some .parse
  | "bind" => some .bind
  | _ => none

/-- The options that an action has. -/
def options : Action → List OptionName
  | .generate => [.input, .config, .output]
  | .check | .dump | .parse => [.input, .config]
  | .bind => [.input, .config, .command, .json]

/-- The request for an action with options and what follows them. -/
def request? (action : Action) (given : Given) (rest : List String) : Option Request := do
  let inputs ← given.inputs?
  match action, rest with
  | .generate, [] => return .generate inputs ((given.lookup .output).getD ".")
  | .check, [] => return .check inputs
  | .dump, [] => return .dump inputs
  | .parse, argv => return .parse inputs argv
  | .bind, [] => return .bind inputs (← given.lookup .command) (← given.lookup .json)
  | _, _ :: _ => none

end Action

/-- The request of a command line. Switches may stand before the name of the action. -/
def Request.ofArgs? (args : List String) : Option Request := do
  match args.dropWhile fun arg => Argument.ofText? arg == some .verbose with
  | [] => none
  | name :: args =>
    let action ← Action.ofName? name
    let (given, rest) ← readOptions? [] args
    if given.all fun g => action.options.contains g.1 then action.request? given rest else none

end CommandSchema.CommandLine
