import CommandSchema.Text.Pieces

/-!
# Paths

A path is a text whose parts stand between slashes. Empty parts and single dots lead nowhere; two
dots lead to the directory above.

* `Path.join`: a path seen from a directory.
* `Path.steps`: the parts that lead somewhere.
* `Path.parent`: the path without its last step.
-/

namespace CommandSchema.Path

/-- The path starts at the root. -/
def isAbsolute (path : String) : Bool := path.toList.head? == some '/'

/-- A path seen from a directory. An absolute path is the same from everywhere, and a slash is put
between the two only if the directory is named and does not end in one. -/
def join (directory path : String) : String :=
  if isAbsolute path then path
  else match directory.toList.getLast? with
    | none | some '/' => directory ++ path
    | some _ => directory ++ "/" ++ path

/-- The parts of a path, those that lead nowhere included. -/
def parts (path : String) : List String :=
  (Text.pieces '/' path.toList).map String.ofList

/-- The part leads nowhere. -/
def isIdle (part : String) : Bool := part == "" || part == "."

/-- The parts that lead somewhere. -/
def steps (path : String) : List String := (parts path).filter fun p => !isIdle p

/-- The parts of a path before its last step, without idle ones at their end. -/
def parentParts (path : String) : List String :=
  (((parts path).reverse.dropWhile isIdle).drop 1 |>.dropWhile isIdle).reverse

/-- The path without its last step. -/
def parent (path : String) : String := String.intercalate "/" (parentParts path)

end CommandSchema.Path
