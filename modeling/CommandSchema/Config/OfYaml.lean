import CommandSchema.Config
import CommandSchema.Text.Blank
import CommandSchema.Yaml.Value

/-!
# Configuration in YAML

A configuration is written as a mapping whose keys name the choices. Every choice may be left out,
and keys that name none are passed over, but no choice may be made twice. Texts are taken as they
are written: quotes and tags make no difference to them, so `3` and `~` are texts here.

* `Config.read?`: the configuration of a document.
* `Config.ofText?`: the same, except that white space alone leaves every choice at its default.
-/

namespace CommandSchema.Config

open Yaml

/-- The text of a scalar. -/
def text? (targets : Value.Targets) (n : Node Nat) : Option String :=
  match targets.follow? n with
  | some (.scalar _ _ text, _) => some text
  | _ => none

/-- The texts of a sequence; nothing at all is the empty one. -/
def texts? (targets : Value.Targets) (n : Node Nat) : Option (List String) :=
  match targets.follow? n with
  | some (.sequence _ items, _) => items.mapM (text? targets)
  | some (.scalar _ true "", _) => some []
  | _ => none

/-- A way to make one choice from a node. -/
abbrev Choice (α : Type) := Value.Targets → α → Node Nat → Option α

/-- The choice of a text. -/
def chooseText {α : Type} (set : α → String → α) : Choice α :=
  fun targets a n => (text? targets n).map (set a)

/-- The choice of a list of texts. -/
def chooseTexts {α : Type} (set : α → List String → α) : Choice α :=
  fun targets a n => (texts? targets n).map (set a)

/-- Makes the choices of a mapping one after the other. `made` are the keys of those made. -/
def chooseAll? {α : Type} (choice? : String → Option (Choice α)) (targets : Value.Targets)
    (made : List String) (a : α) : List (Node Nat × Node Nat) → Option α
  | [] => some a
  | (k, v) :: entries =>
    match text? targets k with
    | none => none
    | some key =>
      match choice? key with
      | none => chooseAll? choice? targets made a entries
      | some choose =>
        if made.contains key then none
        else match choose targets a v with
          | none => none
          | some a => chooseAll? choice? targets (key :: made) a entries

/-- The choices of a mapping node, from the defaults; nothing at all is the empty mapping. -/
def chooseFrom? {α : Type} (choice? : String → Option (Choice α)) (targets : Value.Targets)
    (defaults : α) (n : Node Nat) : Option α :=
  match targets.follow? n with
  | some (.mapping _ entries, _) => chooseAll? choice? targets [] defaults entries
  | some (.scalar _ true "", _) => some defaults
  | _ => none

/-- The choices about file names. -/
def Files.choice? : String → Option (Choice Files)
  | "header" => some (chooseText fun f s => { f with header := s })
  | "run_header" => some (chooseText fun f s => { f with runHeader := s })
  | "source" => some (chooseText fun f s => { f with source := s })
  | "bridge" => some (chooseText fun f s => { f with bridge := s })
  | "declarations" => some (chooseText fun f s => { f with declarations := s })
  | _ => none

/-- The choices of a configuration. -/
def choice? : String → Option (Choice Config)
  | "namespace" => some (chooseText fun c s => { c with nameSpace := s })
  | "parser_guard" => some (chooseText fun c s => { c with parserGuard := s })
  | "run_guard" => some (chooseText fun c s => { c with runGuard := s })
  | "response_module" => some (chooseText fun c s => { c with responseModule := s })
  | "source_dir" => some (chooseText fun c s => { c with sourceDir := s })
  | "declaration_dir" => some (chooseText fun c s => { c with declarationDir := s })
  | "includes" => some (chooseTexts fun c ss => { c with includes := ss })
  | "opaque_types" => some (chooseTexts fun c ss => { c with foreignTypes := ss })
  | "files" => some fun targets c n =>
    (chooseFrom? Files.choice? targets {} n).map fun files => { c with files }
  | _ => none

/-- The configuration of a document. -/
def ofDocument? : Document → Option Config
  | none => some {}
  | some n => chooseFrom? choice? n.anchored {} n

/-- The configuration that a text writes. -/
def read? (text : String) : Option Config := Document.ofText? text >>= ofDocument?

/-- The configuration of a text that may be blank. -/
def ofText? (text : String) : Option Config :=
  if Text.isBlankText text then some {} else read? text

end CommandSchema.Config
