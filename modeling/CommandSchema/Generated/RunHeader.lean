import CommandSchema.Config
import CommandSchema.Generated.Frame
import CommandSchema.Schema

/-!
# The header of handlers

The header declares one function for every command, which the host program has to define.

* `Generated.runHeader`: the whole header.
-/

namespace CommandSchema.Generated

open Layout

/-- The comment above the handlers. -/
def handlerComment : List Step :=
  [.line "/**",
    .line " * @brief Visitor for the commands.",
    .line " *",
    .line " * The main function uses this visitor after parsing a",
    .line " * command, to actually dispatch it. Overloads of operator()",
    .line " * are callbacks of the commands.",
    .line " *",
    .line " * The implementations are in the corresponding source",
    .line " * files, not in run.cpp.",
    .line " */"]

/-- The declaration of the handler of a command. -/
def handler (c : Command) : Step :=
  .line ("auto run (const " ++ c.recordName ++ " &cmd) -> Result<Response, Exception>;")

/-- The header of handlers. -/
def runHeader (s : Schema) (config : Config) : List Step :=
  guarded config.runGuard <|
    [inclusion config.files.header, inclusion "result.h", inclusion "response.h", .blank,
      namespaceStart config.nameSpace, .blank] ++
    handlerComment ++ s.commands.map handler ++
    [.blank, namespaceEnd config.nameSpace, .blank]

end CommandSchema.Generated
