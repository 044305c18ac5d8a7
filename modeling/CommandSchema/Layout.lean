import CommandSchema.Text.Blank
import CommandSchema.Text.Pieces

/-!
# Layout of generated text

A generated file is described by steps, one line or one change of level at a time, and rendered
once. Indentation is the layout's business alone: the texts of the steps are not indented.

* `Layout.Step`: what a description is made of.
* `Layout.Builder`: the lines of a text in the making, each indented two spaces for every level and
  without white space at its end.
* `Layout.render`: the text that the steps of a description make; no step at all gives one empty
  line.
* `Layout.lines`, `Layout.levelAfter`: the lines of a description and the level that it ends at,
  read off its steps.
-/

namespace CommandSchema.Layout

/-- One step of a description. -/
inductive Step where
  /-- Writes a text at the current level, one line for each of its own lines. -/
  | line (text : String)
  /-- Writes an empty line. -/
  | blank
  /-- Goes one level in. -/
  | indent
  /-- Goes one level out; the outermost level stays. -/
  | dedent
  /-- Writes a text and goes one level in. -/
  | opening (text : String)
  /-- Goes one level out and writes a text. -/
  | closing (text : String)
  deriving Repr, DecidableEq

/-- One line at a level: indented, and without white space at its end. -/
def indented (level : Nat) (line : List Char) : List Char :=
  Text.trimEnd (List.replicate (2 * level) ' ' ++ line)

/-- A text in the making: the lines that have been written and the level of the next one. -/
structure Builder where
  written : Array (List Char) := #[]
  level : Nat := 0

namespace Builder

/-- Writes a text at the level, one line for each of its own lines. -/
def line (b : Builder) (text : String) : Builder :=
  let parts := Text.pieces '\n' text.toList
  { b with written := parts.foldl (fun ls part => ls.push (indented b.level part)) b.written }

/-- Writes an empty line. -/
def blank (b : Builder) : Builder := { b with written := b.written.push [] }

/-- Goes one level in. -/
def indent (b : Builder) : Builder := { b with level := b.level + 1 }

/-- Goes one level out; the outermost level stays. -/
def dedent (b : Builder) : Builder := { b with level := b.level - 1 }

/-- Takes a step. -/
def step (b : Builder) : Step → Builder
  | .line text => b.line text
  | .blank => b.blank
  | .indent => b.indent
  | .dedent => b.dedent
  | .opening text => (b.line text).indent
  | .closing text => b.dedent.line text

/-- Takes steps one after the other. -/
def run (b : Builder) (steps : List Step) : Builder := steps.foldl step b

/-- The lines joined, with a line feed at the end. -/
def finish (b : Builder) : String :=
  .ofList (['\n'].intercalate b.written.toList ++ ['\n'])

end Builder

/-- A description as text. -/
def render (steps : List Step) : String := (Builder.run {} steps).finish

/-! ## Descriptions without a builder -/

/-- The lines that a text gives at a level. -/
def textLines (level : Nat) (text : String) : List (List Char) :=
  (Text.pieces '\n' text.toList).map (indented level)

/-- The level after a step. -/
def Step.level (level : Nat) : Step → Nat
  | .line _ | .blank => level
  | .indent | .opening _ => level + 1
  | .dedent | .closing _ => level - 1

/-- The lines that a step writes, from the level before it. -/
def Step.lines (level : Nat) : Step → List (List Char)
  | .line text | .opening text => textLines level text
  | .closing text => textLines (level - 1) text
  | .blank => [[]]
  | .indent | .dedent => []

/-- The lines of a description that starts at a level. -/
def linesFrom (level : Nat) : List Step → List (List Char)
  | [] => []
  | s :: steps => s.lines level ++ linesFrom (s.level level) steps

/-- The lines of a description. -/
def lines (steps : List Step) : List (List Char) := linesFrom 0 steps

/-- The level after a description that starts at a level. -/
def levelAfter (level : Nat) (steps : List Step) : Nat :=
  steps.foldl (fun level s => s.level level) level

@[simp] theorem linesFrom_append (level : Nat) (a b : List Step) :
    linesFrom level (a ++ b) = linesFrom level a ++ linesFrom (levelAfter level a) b := by
  induction a generalizing level with
  | nil => rfl
  | cons s a ih => simp [linesFrom, levelAfter, ih]

@[simp] theorem levelAfter_append (level : Nat) (a b : List Step) :
    levelAfter level (a ++ b) = levelAfter (levelAfter level a) b := by
  simp [levelAfter, List.foldl_append]

end CommandSchema.Layout
