import CommandSchema.Config
import CommandSchema.Generated.Frame
import CommandSchema.Generated.Types
import CommandSchema.Schema

/-!
# The header of records

The header declares one struct for every command, the union of them all, and the two parsers.

* `Generated.record`: the struct of a command.
* `Generated.header`: the whole header.
-/

namespace CommandSchema.Generated

open Layout

/-- The struct of a command. -/
def record (c : Command) : List Step :=
  if c.fields.isEmpty then [.line ("struct " ++ c.recordName ++ " \x7b\x7d;")]
  else
    .opening ("struct " ++ c.recordName ++ " \x7b") ::
      c.fields.map (fun f => .line f.declaration) ++ [.closing "\x7d;"]

/-- Names on lines of their own, with a comma after every one but the last. -/
def alternatives : List String → List Step
  | [] => []
  | [name] => [.line name]
  | name :: next :: names => .line (name ++ ",") :: alternatives (next :: names)

/-- The union of all records. -/
def union (s : Schema) : List Step :=
  .opening "using Command = Variant<" :: alternatives (s.commands.map (·.recordName)) ++
    [.closing ">;"]

/-- The headers that every header of records includes. -/
def headerInclusions : List String :=
  ["datetime.h", "exception.h", "optional.h", "variant.h", "result.h"]

/-- The declarations of the parsers. -/
def parserDeclarations : List Step :=
  [.line "/**",
    .line " * @brief parses the command stored in str.",
    .line " *",
    .line " * this function is autogenerated.",
    .line " */",
    .line "auto parse (std::string &str)",
    .line "  -> Result<Command, ParseException>;",
    .line "auto parse (const Vector<std::string_view> &argv)",
    .line "  -> Result<Command, ParseException>;"]

/-- The header of records. -/
def header (s : Schema) (config : Config) : List Step :=
  guarded config.parserGuard <|
    [.line "#include <iostream>", .blank] ++
    (headerInclusions ++ config.includes).map inclusion ++
    [.blank, .line "/// Classes and parsers for commands.", namespaceStart config.nameSpace,
      .blank, .line "enum SortType \x7b kTime, kCost \x7d;", .blank] ++
    s.commands.flatMap (fun c => record c ++ [.blank]) ++
    union s ++ [.blank] ++
    parserDeclarations ++
    [.blank, namespaceEnd config.nameSpace, .blank]

end CommandSchema.Generated
