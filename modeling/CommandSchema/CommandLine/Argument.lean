/-!
# Arguments

An argument of the command line by itself: switches, or an option with or without its value. A
short option may follow switches in one argument, and its value may follow at once or after an
equals sign.

* `Argument.ofText?`: what an argument is.
* `isValue`: an argument can be the value of the option before it.
-/

namespace CommandSchema.CommandLine

/-- An option that takes a value. -/
inductive OptionName where
  | input
  | config
  | output
  | command
  | json
  deriving DecidableEq, Repr

namespace OptionName

/-- The option with a long name. -/
def ofLong? : String → Option OptionName
  | "input" => some .input
  | "config" => some .config
  | "output" => some .output
  | "command" => some .command
  | "json" => some .json
  | _ => none

/-- The option with a short name. -/
def ofShort? : Char → Option OptionName
  | 'i' => some .input
  | 'c' => some .config
  | 'o' => some .output
  | _ => none

/-- The option is given a path, which cannot be empty. -/
def isPath : OptionName → Bool
  | .input | .config | .output => true
  | .command | .json => false

end OptionName

/-- What an argument is. -/
inductive Argument where
  /-- Asks for more diagnostics, once or more often. -/
  | verbose
  /-- An option with its value. -/
  | option (name : OptionName) (value : String)
  /-- An option whose value is the next argument. -/
  | pending (name : OptionName)
  deriving DecidableEq, Repr

namespace Argument

/-- The long option after two dashes, with its value after an equals sign. -/
def ofLong? (cs : List Char) : Option Argument :=
  match cs.span (· != '=') with
  | (name, []) =>
    if String.ofList name = "verbose" then some .verbose
    else (OptionName.ofLong? (.ofList name)).map .pending
  | (name, _ :: value) =>
    (OptionName.ofLong? (.ofList name)).map fun o => .option o (.ofList value)

/-- The short options after a dash. -/
def ofShort? : List Char → Option Argument
  | [] => some .verbose
  | 'v' :: cs => ofShort? cs
  | c :: cs =>
    (OptionName.ofShort? c).map fun o =>
      match cs with
      | [] => .pending o
      | '=' :: value => .option o (.ofList value)
      | value => .option o (.ofList value)

/-- What an argument is, if it is neither unknown nor a word. -/
def ofText? (text : String) : Option Argument :=
  match text.toList with
  | '-' :: '-' :: cs => ofLong? cs
  | '-' :: c :: cs => ofShort? (c :: cs)
  | _ => none

end Argument

/-- The argument can be the value of the option before it: it does not look like an option. -/
def isValue (text : String) : Bool :=
  match text.toList with
  | '-' :: _ :: _ => false
  | _ => true

end CommandSchema.CommandLine
