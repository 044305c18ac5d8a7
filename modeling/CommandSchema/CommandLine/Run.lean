import CommandSchema.CommandLine.Request
import CommandSchema.Config.OfYaml
import CommandSchema.Files.Tree
import CommandSchema.Generated.Artifacts
import CommandSchema.Invocation.Argv
import CommandSchema.Invocation.Options
import CommandSchema.Json.Reader
import CommandSchema.Schema.Load
import CommandSchema.Schema.ToJson

/-!
# Runs

A run of the program on a command line. It first reads all files that the command line names, and
what it is asked to do is a `Task` from then on. It reaches files and its reader through an `Access`
of any monad, so that the same run works on the files of a machine and on a `Tree`.

* `prepare`: the task of a request, from the files that it names.
* `perform`: does a task.
* `run`: the run of a command line.
* `Failure.line`: what a failed run says last.
* `runOn`, `runIn`: a run on a tree.
-/

namespace CommandSchema.CommandLine

/-- Why a run fails. -/
inductive Failure where
  /-- A file cannot be read or written. -/
  | file
  /-- The configuration is no YAML, or none that configures anything. -/
  | config
  | load (error : LoadError)
  /-- The options are no JSON. -/
  | json
  | argv (error : ArgvError)
  | call (error : CallError)
  deriving DecidableEq, Repr

/-- An error of a schema the way that a diagnostic shows its cause. -/
def errorLine (cause content : String) : String :=
  "Error: " ++ cause ++ "(" ++ Text.visible content ++ ")"

/-- What a failed run says last. For a failure whose wording is not the program's own this is only
the kind of failure. -/
def Failure.line : Failure → String
  | .file => "Io"
  | .config | .load (.parse .yaml) => "Yaml"
  | .json => "Json"
  | .load (.parse (.shape fault)) => errorLine "SchemaError" fault.message
  | .load (.parse (.spec fault)) =>
    "Error: SpecSyntax \x7b command: " ++ Text.visible fault.command ++ ", flag: " ++
      Text.visible fault.flag ++ ", text: " ++ Text.visible fault.text ++ " \x7d"
  | .load (.rule violation) => errorLine "VerifierError" violation.message
  | .argv error => "ParseException: " ++ error.message
  | .call error => error.message

/-- How a run ends, with something from its success. -/
inductive Outcome (α : Type) where
  /-- The run has done what was asked. -/
  | success (a : α)
  | failure (cause : Failure)
  /-- The command line asks for nothing that the program does. -/
  | usage
  deriving DecidableEq, Repr

namespace Outcome

variable {α β : Type}

/-- The exit status of a run. -/
def status : Outcome α → UInt8
  | .success _ => 0
  | .failure _ => 1
  | .usage => 2

/-- The outcome with something else from its success. -/
def map (f : α → β) : Outcome α → Outcome β
  | .success a => .success (f a)
  | .failure cause => .failure cause
  | .usage => .usage

/-- The outcome of a request that the program knows. -/
def ofExcept : Except Failure α → Outcome α
  | .ok a => .success a
  | .error cause => .failure cause

end Outcome

/-- What a run can do to its surroundings. -/
structure Access (m : Type → Type) where
  read : String → m ReadResult
  /-- Writes a text at a path, after the directories above it have been made. False tells that this
  could not be done. -/
  write : String → String → m Bool
  /-- Shows a text on a line of its own. -/
  print : String → m Unit

/-- What a request asks for once the files that it names have been read. -/
inductive Task where
  /-- Writes the generated files into a directory and shows their paths. -/
  | write (output : String) (config : Config) (artifacts : Artifacts)
  /-- Shows how many commands a schema has. -/
  | count (path : String) (schema : Schema)
  /-- Shows a schema in JSON. -/
  | dump (schema : Schema)
  /-- Shows the invocation of an argument vector. -/
  | parse (schema : Schema) (argv : List String)
  /-- Shows the invocation of an export with options in JSON. -/
  | bind (schema : Schema) (exportName json : String)
  deriving DecidableEq, Repr

section

variable {m : Type → Type} [Monad m] (access : Access m)

/-! ## Reading -/

/-- The configuration at a path, or the default one. -/
def readConfig : Option String → ExceptT Failure m Config
  | none => return {}
  | some path => do
    match ← access.read path with
    | .notOpened => throw .file
    | .notRead => throw .config
    | .text text =>
      match Config.read? text with
      | some config => return config
      | none => throw .config

/-- The text of a schema. -/
def readText (path : String) : ExceptT Failure m String := do
  match ← access.read path with
  | .text text => return text
  | .notOpened | .notRead => throw .file

/-- The schema of a text. -/
def loadSchema (text : String) (config : Config) : ExceptT Failure m Schema :=
  match Schema.load text config with
  | .ok s => return s
  | .error e => throw (.load e)

/-- The schema of files. -/
def readSchema (inputs : Inputs) : ExceptT Failure m Schema := do
  let text ← readText access inputs.schema
  let config ← readConfig access inputs.config
  loadSchema text config

/-- What is generated from files. The configuration is read first. -/
def compile (inputs : Inputs) : ExceptT Failure m (Config × Artifacts) := do
  let config ← readConfig access inputs.config
  let text ← readText access inputs.schema
  let schema ← loadSchema text config
  return (config, Artifacts.ofSchema schema config)

/-- The task of a request. -/
def prepare : Request → ExceptT Failure m Task
  | .generate inputs output => do
    let (config, artifacts) ← compile access inputs
    return .write output config artifacts
  | .check inputs => return .count inputs.schema (← readSchema access inputs)
  | .dump inputs => return .dump (← readSchema access inputs)
  | .parse inputs argv => return .parse (← readSchema access inputs) argv
  | .bind inputs exportName json => return .bind (← readSchema access inputs) exportName json

/-! ## Tasks -/

/-- Writes files below a directory one after the other, and tells their paths. -/
def writeAll (root : String) : List (String × String) → ExceptT Failure m (List String)
  | [] => return []
  | (path, text) :: files => do
    let path := Path.join root path
    if ← access.write path text then
      return path :: (← writeAll root files)
    else throw .file

/-- Shows an invocation, or fails. -/
def showInvocation {ε : Type} (failure : ε → Failure) (result : Except ε Invocation) :
    ExceptT Failure m Unit :=
  match result with
  | .ok invocation => access.print invocation.toJson.pretty
  | .error e => throw (failure e)

/-- Does a task. -/
def perform : Task → ExceptT Failure m Unit
  | .write output config artifacts => do
    let paths ← writeAll access output (artifacts.files config)
    paths.forM fun path => access.print path
  | .count path schema =>
    access.print (path ++ ": " ++ toString schema.commands.length ++ " commands OK")
  | .dump schema => access.print schema.dump
  | .parse schema argv => showInvocation access .argv (schema.parseArgv argv)
  | .bind schema exportName json =>
    match Json.read? json with
    | none => throw .json
    | some options => showInvocation access .call (schema.bind exportName options)

/-- Does what is asked for. -/
def answer (request : Request) : m (Outcome Unit) := do
  return .ofExcept (← (prepare access request >>= perform access).run)

/-- The run of a command line. -/
def run (args : List String) : m (Outcome Unit) :=
  match Request.ofArgs? args with
  | none => return .usage
  | some request => answer access request

end

/-! ## Runs on a tree -/

/-- A tree, and what has been shown so far. -/
structure Session where
  tree : Tree
  shown : String := ""

/-- Access to a tree. -/
def onTree : Access (StateM Session) where
  read path := return (← get).tree.read path
  write path text := modifyGet fun s =>
    let written := s.tree.write path text
    (written.1, { s with tree := written.2 })
  print line := modify fun s => { s with shown := s.shown ++ (line ++ "\n") }

/-- A run on a tree, from the session in which nothing has been shown. -/
def runOn (t : Tree) (args : List String) : Outcome Unit × Session :=
  (run onTree args).run { tree := t }

/-- A run on a tree, with what it shows if it succeeds, and the tree that it leaves. -/
def runIn (t : Tree) (args : List String) : Outcome String × Tree :=
  let (outcome, s) := runOn t args
  (outcome.map fun () => s.shown, s.tree)

end CommandSchema.CommandLine
