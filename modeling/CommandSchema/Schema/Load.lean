import CommandSchema.Config
import CommandSchema.Schema.OfYaml
import CommandSchema.Schema.Rules

/-!
# Loading a schema

A schema is ready for use once it has been read and keeps all rules.

* `Schema.load`: the schema of a text under a configuration.
* `LoadError`: why there is none; `LoadError.message?`: the same in words.
-/

namespace CommandSchema

/-- Why a schema could not be loaded. -/
inductive LoadError where
  | parse (fault : ParseError)
  | rule (violation : Violation)
  deriving DecidableEq, Repr

/-- The error in words, with its cause in front. A text that is no YAML has no words here. -/
def LoadError.message? : LoadError → Option String
  | .parse .yaml => none
  | .parse (.shape fault) => some ("Schema error: " ++ fault.message)
  | .parse (.spec fault) => some fault.message
  | .rule violation => some ("Verifier error: " ++ violation.message)

namespace Schema

/-- The schema of a text, if it keeps all rules under a configuration. -/
def load (text : String) (config : Config) : Except LoadError Schema :=
  match parse text with
  | .error e => .error (.parse e)
  | .ok s =>
    match s.verify config.foreignTypes with
    | .error v => .error (.rule v)
    | .ok () => .ok s

end Schema

end CommandSchema
