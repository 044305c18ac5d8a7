import CommandSchema.Config
import CommandSchema.Generated.ArgvCode
import CommandSchema.Generated.Frame

/-!
# The source of the parsers

The source defines the two parsers that the header declares: one splits a line and leaves the rest
to the other, which has the code of `Generated.ArgvCode`.

* `Generated.source`: the whole file.
-/

namespace CommandSchema.Generated

open Layout

/-- The parser of a line. -/
def lineParser : List Step :=
  [.line "auto parse (std::string &str)",
    .opening "  -> Result<Command, ParseException> \x7b",
    .line "auto argv = split(str, ' ');",
    .line "return parse(argv);",
    .closing "\x7d"]

/-- The parser of an argument vector. -/
def argvParser (s : Schema) : List Step :=
  [.line "auto parse (const Vector<std::string_view> &argv)",
    .opening "  -> Result<Command, ParseException> \x7b"] ++
    (ArgvCode.ofSchema s).steps ArgvCode.writing ++ [.closing "\x7d"]

/-- The source of the parsers. -/
def source (s : Schema) (config : Config) : List Step :=
  [disclaimer, .blank, inclusion config.files.header, .blank, inclusion "utility.h", .blank,
    namespaceStart config.nameSpace, .blank] ++
    lineParser ++ [.blank] ++ argvParser s ++ [.blank, namespaceEnd config.nameSpace]

end CommandSchema.Generated
