/-!
# Configuration

What a user may choose about the generated files: their names and places, the namespace and the
include guards, and the types that they pass through.

* `Config.Files`: the names of the five files.
* `Config`: all choices, each with a default.
-/

namespace CommandSchema

/-- The names of the generated files, each relative to its directory. -/
structure Config.Files where
  /-- The records and the declarations of the parsers. -/
  header : String := "parser.h"
  /-- The declarations of the handlers. -/
  runHeader : String := "run.h"
  /-- The parsers. -/
  source : String := "parser.cpp"
  /-- The functions for scripts. -/
  bridge : String := "node.cpp"
  /-- The types of these functions. -/
  declarations : String := "index.d.ts"
  deriving DecidableEq, Repr

/-- The choices of a user. -/
structure Config where
  /-- The namespace around all declarations. -/
  nameSpace : String := "ticket::command"
  /-- The include guard of the header. -/
  parserGuard : String := "TICKET_PARSER_H_"
  /-- The include guard of the handlers' header. -/
  runGuard : String := "TICKET_RUN_H_"
  /-- The module that the declarations import the type of responses from. -/
  responseModule : String := "./response"
  /-- The directory of the C++ files, relative to the output directory. -/
  sourceDir : String := "src"
  /-- The directory of the declarations, relative to the output directory. -/
  declarationDir : String := "."
  /-- Further headers that the header includes. -/
  includes : List String := []
  /-- The names of the foreign types. -/
  foreignTypes : List String := []
  files : Config.Files := {}
  deriving DecidableEq, Repr

end CommandSchema
