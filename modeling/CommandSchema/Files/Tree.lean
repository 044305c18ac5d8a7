import CommandSchema.Files.Path

/-!
# Trees of files

The directories and files that a program finds and leaves. Paths start at the root or at the working
directory. What no path of the program has reached holds nothing.

* `Tree.place`: where a path leads if nothing stops it; `Tree.resolve?`: where it does lead.
* `Tree.read`: what is read from a path.
* `Tree.write`: writes a file, after the directories on its path have been made.
* `Tree.changes`: the texts that are not as they were.
-/

namespace CommandSchema

/-- A place in a tree. -/
structure Location where
  /-- The names on the way down from the root, the last one first. -/
  names : List String
  deriving DecidableEq, Repr

namespace Location

/-- Where every way from the root starts. -/
def root : Location := ⟨[]⟩

/-- The place that a name leads to. -/
def child (l : Location) (name : String) : Location := ⟨name :: l.names⟩

/-- The directory above; the root is above itself. -/
def above (l : Location) : Location := ⟨l.names.tail⟩

/-- The other place is the same or lies below. -/
def contains (l other : Location) : Bool := l.names.isSuffixOf other.names

/-- The path of a place from a directory that contains it. -/
def pathFrom? (l directory : Location) : Option String :=
  if directory.contains l then
    some ("/".intercalate (l.names.take (l.names.length - directory.names.length)).reverse)
  else none

end Location

/-- What a file holds for the program. -/
inductive Content where
  | text (text : String)
  /-- Octets that are no text. -/
  | octets
  /-- The program may neither read nor write the file. -/
  | closed
  deriving DecidableEq, Repr

/-- The text of a file that holds one. -/
def Content.text? : Content → Option String
  | .text s => some s
  | .octets | .closed => none

/-- Directories, and files. -/
structure Tree where
  /-- The directory that relative paths start from. -/
  working : Location := ⟨["work", "tmp"]⟩
  directories : List Location := []
  files : List (Location × Content) := []
  deriving Repr

/-- What comes of reading a path. -/
inductive ReadResult where
  /-- Nothing can be read there. -/
  | notOpened
  /-- What is there is no text. -/
  | notRead
  | text (text : String)
  deriving DecidableEq, Repr

namespace Tree

/-- There is a directory: one of the tree, or one that contains the working directory. -/
def isDirectory (t : Tree) (l : Location) : Bool :=
  l.contains t.working || t.directories.contains l

/-- What the file at a place holds, if there is one. -/
def file? (t : Tree) (l : Location) : Option Content := t.files.lookup l

/-! ## Limits -/

/-- The longest name, in octets. -/
def maxName : Nat := 255

/-- The longest path, in octets. -/
def maxPath : Nat := 4095

/-- A path that names anything: not empty, not too long and without NUL. -/
def isUsable (path : String) : Bool :=
  !path.isEmpty && path.utf8ByteSize ≤ maxPath && !path.toList.contains '\x00'

/-! ## Ways -/

/-- Where a path starts. -/
def start (t : Tree) (path : String) : Location :=
  if Path.isAbsolute path then .root else t.working

/-- The place that a part of a path leads to from a directory. -/
def step (l : Location) (part : String) : Location :=
  if Path.isIdle part then l else if part == ".." then l.above else l.child part

/-- Where a path leads if every part of it starts from a directory. -/
def place (t : Tree) (path : String) : Location := (Path.parts path).foldl step (t.start path)

/-- Where the parts of a path lead. Every part has to start from a directory. -/
def walk? (t : Tree) (l : Location) : List String → Option Location
  | [] => some l
  | part :: rest => if t.isDirectory l then t.walk? (step l part) rest else none

/-- Where a path leads, whether there is anything or not. -/
def resolve? (t : Tree) (path : String) : Option Location :=
  if isUsable path then t.walk? (t.start path) (Path.parts path) else none

/-! ## Reading and writing -/

/-- What is read from a path. -/
def read (t : Tree) (path : String) : ReadResult :=
  match t.resolve? path with
  | none => .notOpened
  | some l =>
    if t.isDirectory l then .notRead
    else match t.file? l with
      | some (.text text) => .text text
      | some .octets => .notRead
      | some .closed | none => .notOpened

/-- Makes a directory unless it is there already. -/
def makeDirectory? (t : Tree) (l : Location) : Option Tree :=
  if t.isDirectory l then some t
  else if (t.file? l).isSome || (l.names.headD "").utf8ByteSize > maxName then none
  else some { t with directories := l :: t.directories }

/-- Makes the directories that steps lead through, one after the other. False tells that one of them
could not be made; those before it stay. -/
def makeDirectories (t : Tree) (l : Location) : List String → Bool × Tree
  | [] => (true, t)
  | part :: rest =>
    match t.makeDirectory? (step l part) with
    | none => (false, t)
    | some t => t.makeDirectories (step l part) rest

/-- Makes the directories above a path. -/
def makeParents (t : Tree) (path : String) : Bool × Tree :=
  let parent := Path.parent path
  if parent.isEmpty then (true, t)
  else if isUsable parent then t.makeDirectories (t.start parent) (Path.steps parent)
  else (false, t)

/-- The last part of a path is a name. -/
def endsInName (path : String) : Bool :=
  match (Path.parts path).getLast? with
  | none => false
  | some part => !Path.isIdle part && part != ".."

/-- Puts a file at a place, in the stead of one that is there already. -/
def putFile? (t : Tree) (l : Location) (text : String) : Option Tree :=
  if t.isDirectory l || t.file? l == some .closed || (l.names.headD "").utf8ByteSize > maxName then
    none
  else some { t with files := (l, .text text) :: t.files.filter (·.1 != l) }

/-- Puts a file at a path whose directories are there. -/
def putAt? (t : Tree) (path text : String) : Option Tree := do
  let l ← t.resolve? path
  if endsInName path then t.putFile? l text else none

/-- Writes a file at a path, after the directories above it have been made. False tells that this
could not be done; directories that have been made stay. -/
def write (t : Tree) (path text : String) : Bool × Tree :=
  match t.makeParents path with
  | (false, t) => (false, t)
  | (true, t) =>
    match t.putAt? path text with
    | none => (false, t)
    | some t => (true, t)

/-- The tree of files at paths. Paths that cannot be written are left out. -/
def ofFiles (files : List (String × String)) : Tree :=
  files.foldl (fun t f => (t.write f.1 f.2).2) {}

/-! ## Changes -/

/-- The texts of the working directory with their paths from there. -/
def localFiles (t : Tree) : List (String × String) :=
  t.files.filterMap fun f => do return (← f.1.pathFrom? t.working, ← f.2.text?)

/-- The texts of the working directory that are not the same in an earlier tree, by their paths. -/
def changes (t earlier : Tree) : List (String × String) :=
  (t.localFiles.filter fun f => !earlier.localFiles.contains f).mergeSort fun a b => a.1 ≤ b.1

end Tree

end CommandSchema
