import CommandSchema.Layout
import CommandSchema.Text.Quoted

/-!
# Lines that generated files share

* `disclaimer`: the first line of every file.
* `inclusion`, `namespaceStart`, `namespaceEnd`, `guarded`: the frame of a C++ file.
-/

namespace CommandSchema.Generated

open Layout

/-- The first line of every file. -/
def disclaimer : Step := .line "// This file is autogenerated. Do not modify."

/-- The inclusion of a header. -/
def inclusion (header : String) : Step := .line ("#include " ++ Text.quote header)

/-- The start of a namespace. -/
def namespaceStart (name : String) : Step := .line ("namespace " ++ name ++ " \x7b")

/-- The end of a namespace. -/
def namespaceEnd (name : String) : Step := .line ("\x7d // namespace " ++ name)

/-- A header whose text is read only once. -/
def guarded (guard : String) (body : List Step) : List Step :=
  [disclaimer, .blank, .line ("#ifndef " ++ guard), .line ("#define " ++ guard), .blank] ++
    body ++ [.line ("#endif // " ++ guard)]

end CommandSchema.Generated
