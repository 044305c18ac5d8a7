import CommandSchema.Config
import CommandSchema.Generated.Frame
import CommandSchema.Generated.Types
import CommandSchema.Schema

/-!
# The declarations for scripts

The declarations tell a script the type of every function of the bridge and of its options.

* `Command.signature`: the declaration of the function of a command.
* `Generated.declarations`: the whole file.
-/

namespace CommandSchema

/-- The declaration of the function of a command. A command without fields has no options. -/
def Command.signature (c : Command) : String :=
  let parameter := if c.fields.isEmpty then "" else "options: " ++ c.optionsName
  "export function " ++ c.exportName ++ " (" ++ parameter ++ "): Response"

namespace Generated

open Layout

/-- The types that fields are declared with. -/
def typeAliases : List Step :=
  [.line "export type SortType = 'time' | 'cost'",
    .line "export type Duration = number",
    .blank,
    .line "type Numeral = '0' | '1' | '2' | '3' | '4' | '5' | '6' | '7' | '8' | '9'",
    .line "type NumberSegment = `$\x7bNumeral\x7d$\x7bNumeral\x7d`",
    .line "export type DateString = `$\x7bNumberSegment\x7d-$\x7bNumberSegment\x7d`",
    .line "export type Instant = `$\x7bNumberSegment\x7d:$\x7bNumberSegment\x7d`"]

/-- The declaration of a member of the options. -/
def optionMember (f : Field) : Step :=
  .line (f.name ++ (if f.mayBeAbsent then "?" else "") ++ ": " ++ f.tsType)

/-- The type of the options of a command. -/
def optionsInterface (c : Command) : List Step :=
  .opening ("interface " ++ c.optionsName ++ " \x7b") :: c.fields.map optionMember ++
    [.closing "\x7d"]

/-- The declarations for scripts. -/
def declarations (s : Schema) (config : Config) : List Step :=
  [disclaimer, .blank,
    .line ("import \x7b Response \x7d from '" ++ config.responseModule ++ "'"), .blank] ++
    typeAliases ++ [.blank] ++
    (s.commands.filter fun c => !c.fields.isEmpty).flatMap
      (fun c => optionsInterface c ++ [.blank]) ++
    s.commands.map fun c => .line c.signature

end Generated

end CommandSchema
