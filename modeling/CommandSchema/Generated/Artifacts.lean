import CommandSchema.Files.Path
import CommandSchema.Generated.Bridge
import CommandSchema.Generated.Declarations
import CommandSchema.Generated.Header
import CommandSchema.Generated.RunHeader
import CommandSchema.Generated.Source

/-!
# The generated files

* `Artifacts.ofSchema`: the texts of the five files.
* `Artifacts.files`: these texts with their paths, in the order in which they are written.
-/

namespace CommandSchema

/-- The texts of the five files. -/
structure Artifacts where
  header : String
  runHeader : String
  source : String
  bridge : String
  declarations : String
  deriving DecidableEq, Repr

namespace Artifacts

/-- The files of a schema. -/
def ofSchema (s : Schema) (config : Config) : Artifacts where
  header := Layout.render (Generated.header s config)
  runHeader := Layout.render (Generated.runHeader s config)
  source := Layout.render (Generated.source s config)
  bridge := Layout.render (Generated.bridge s config)
  declarations := Layout.render (Generated.declarations s config)

/-- The paths of the files, relative to the output directory. -/
def paths (config : Config) : List String :=
  [Path.join config.sourceDir config.files.header,
    Path.join config.sourceDir config.files.runHeader,
    Path.join config.sourceDir config.files.source,
    Path.join config.sourceDir config.files.bridge,
    Path.join config.declarationDir config.files.declarations]

/-- The texts in the order of their paths. -/
def texts (a : Artifacts) : List String :=
  [a.header, a.runHeader, a.source, a.bridge, a.declarations]

/-- The files with their paths. -/
def files (a : Artifacts) (config : Config) : List (String × String) :=
  (paths config).zip a.texts

end Artifacts

end CommandSchema
