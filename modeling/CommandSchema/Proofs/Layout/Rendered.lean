import CommandSchema.Proofs.Layout
import Mathlib.Data.List.Induction
import Mathlib.Data.List.TakeWhile

/-!
# The text that steps make

The text of a description has one line for every blank line and for every part of a text that its
steps push, in their order, and nothing else.

* `Layout.partLine`: the line of a part at a level.
* `Layout.pushed`: the parts that steps push, each with the level of its line.
* `Layout.Tracks`: a builder has written the lines of these parts.
* `Layout.Tracks.step`, `Layout.tracks_run`: what one step keeps, and so every run.
* `Layout.Renders`, `Layout.render_lines`: the text that a builder makes of its lines, and what is
  read back from it.
-/

namespace CommandSchema.Text

theorem trimEnd_eq_nil_iff {cs : List Char} : trimEnd cs = [] ↔ cs.all isBlank = true := by
  rw [trimEnd, List.reverse_eq_nil_iff, List.dropWhile_eq_nil_iff, List.all_eq_true]
  simp only [List.mem_reverse]

/-- What stands before a text that is not blank is not at the end. -/
theorem trimEnd_append {cs : List Char} (h : cs.all isBlank = false) (front : List Char) :
    trimEnd (front ++ cs) = front ++ trimEnd cs := by
  obtain ⟨c, hmem, hc⟩ := List.all_eq_false.1 h
  have hvisible : isBlank c = false := by simpa using hc
  obtain ⟨before, after, rfl⟩ := List.append_of_mem hmem
  rw [← List.append_assoc, trimEnd_append_cons hvisible, trimEnd_append_cons hvisible,
    List.append_assoc]

theorem isBlank_getLast?_trimEnd {cs : List Char} {c : Char} (h : (trimEnd cs).getLast? = some c) :
    isBlank c = false := by
  rw [trimEnd, List.getLast?_reverse] at h
  have hhead := List.head?_dropWhile_not isBlank cs.reverse
  rw [h] at hhead
  simpa using hhead

end CommandSchema.Text

namespace CommandSchema.Layout

open Text

/-! ## Statement -/

/-- The line of a part at a level: two spaces for every level, then the part without white space at
its end; nothing if the part is blank. -/
def partLine (level : Nat) (part : List Char) : List Char :=
  if part.all isBlank then [] else List.replicate (2 * level) ' ' ++ trimEnd part

/-- The parts that a step pushes: those of its text between line feeds, or an empty one. -/
def Step.parts : Step → List (List Char)
  | .line text | .opening text | .closing text => pieces '\n' text.toList
  | .blank => [[]]
  | .indent | .dedent => []

/-- The level at which a step writes, from the level before it: a closing step has already gone out,
and an opening one has not yet gone in. -/
def Step.lineLevel (level : Nat) : Step → Nat
  | .closing _ => level - 1
  | .line _ | .opening _ | .blank | .indent | .dedent => level

/-- The parts that steps push, in their order. The level of a part counts the steps before the one
that pushes it. -/
def pushed (steps : List Step) : List (Nat × List Char) :=
  steps.zipIdx.flatMap fun s =>
    s.1.parts.map fun part => (s.1.lineLevel (levelAfter 0 (steps.take s.2)), part)

/-- The builder stands at the level that steps lead to, and has written one line for every part that
they push. -/
structure Tracks (steps : List Step) (b : Builder) : Prop where
  level_eq : b.level = levelAfter 0 steps
  written_eq : b.written.toList = (pushed steps).map fun part => partLine part.1 part.2

/-- The text consists of the lines that a builder has written. -/
structure Renders (b : Builder) (text : String) : Prop where
  /-- No line ends in white space. -/
  isBlank_getLast? : ∀ l ∈ b.written.toList, ∀ c, l.getLast? = some c → isBlank c = false
  /-- Every line is ended by a line feed. There is one even if nothing has been written. -/
  text_eq : text.toList =
    if b.written.toList = [] then ['\n'] else b.written.toList.flatMap fun l => l ++ ['\n']
  /-- The text is cut at its line feeds into the lines; nothing follows the last line feed. -/
  pieces_eq : pieces '\n' text.toList =
    (if b.written.toList = [] then [[]] else b.written.toList) ++ [[]]

/-! ## Lines of parts -/

theorem indented_eq_partLine (level : Nat) (part : List Char) :
    indented level part = partLine level part := by
  unfold indented partLine
  split_ifs with h
  · have hspace : isBlank ' ' = true := by decide
    rw [trimEnd_eq_nil_iff, List.all_append, h, Bool.and_true, List.all_eq_true]
    intro c hc
    rw [List.eq_of_mem_replicate hc, hspace]
  · exact trimEnd_append (by simpa using h) _

theorem lines_eq_map_partLine (level : Nat) (s : Step) :
    s.lines level = s.parts.map (partLine (s.lineLevel level)) := by
  have htext (level : Nat) (text : String) :
      textLines level text = (pieces '\n' text.toList).map (partLine level) :=
    List.map_congr_left fun part _ => indented_eq_partLine level part
  cases s with
  | line text | opening text | closing text => exact htext ..
  | blank => rfl
  | indent | dedent => rfl

theorem isBlank_getLast?_partLine {level : Nat} {part : List Char} {c : Char}
    (h : (partLine level part).getLast? = some c) : isBlank c = false := by
  rw [← indented_eq_partLine] at h
  exact isBlank_getLast?_trimEnd h

/-! ## One step more -/

theorem pushed_concat (steps : List Step) (s : Step) :
    pushed (steps ++ [s]) =
      pushed steps ++ s.parts.map fun part => (s.lineLevel (levelAfter 0 steps), part) := by
  have hsteps : steps.zipIdx.flatMap (fun t => t.1.parts.map fun part =>
        (t.1.lineLevel (levelAfter 0 ((steps ++ [s]).take t.2)), part)) = pushed steps := by
    refine List.flatMap_congr fun t ht => ?_
    have hlt : t.2 < steps.length + 0 := List.snd_lt_of_mem_zipIdx ht
    rw [List.take_append_of_le_length (by omega)]
  rw [pushed, List.zipIdx_append, List.flatMap_append, hsteps]
  simp

theorem levelAfter_concat (steps : List Step) (s : Step) :
    levelAfter 0 (steps ++ [s]) = s.level (levelAfter 0 steps) := by
  rw [levelAfter_append]
  rfl

/-- A step goes on with the lines that those before it have written. -/
theorem Tracks.step {steps : List Step} {b : Builder} (h : Tracks steps b) (s : Step) :
    Tracks (steps ++ [s]) (b.step s) where
  level_eq := by rw [level_step, h.level_eq, levelAfter_concat]
  written_eq := by
    rw [toList_written_step, h.level_eq, h.written_eq, lines_eq_map_partLine, pushed_concat,
      List.map_append, List.map_map]
    rfl

/-! ## Runs -/

theorem run_concat (b : Builder) (steps : List Step) (s : Step) :
    b.run (steps ++ [s]) = (b.run steps).step s := run_append ..

theorem tracks_run (steps : List Step) : Tracks steps (Builder.run {} steps) := by
  induction steps using List.reverseRecOn with
  | nil => exact ⟨rfl, rfl⟩
  | append_singleton steps s ih =>
    rw [run_concat]
    exact ih.step s

theorem renders_run (steps : List Step) : Renders (Builder.run {} steps) (render steps) where
  isBlank_getLast? := by
    intro l hl c hc
    rw [(tracks_run steps).written_eq, List.mem_map] at hl
    obtain ⟨part, -, rfl⟩ := hl
    exact isBlank_getLast?_partLine hc
  text_eq := by
    rw [toList_written]
    split_ifs with h
    · rw [render_of_lines_eq_nil h]
      rfl
    · exact toList_render h
  pieces_eq := by
    rw [toList_written]
    split_ifs with h
    · rw [render_of_lines_eq_nil h]
      rfl
    · exact pieces_render h

/-- Steps make a text of one line for every part that they push, and one more step only goes on with
these lines. -/
theorem render_lines (steps : List Step) :
    Tracks steps (Builder.run {} steps) ∧ Renders (Builder.run {} steps) (render steps) ∧
      ∀ s, (Builder.run {} steps).written.toList <+:
        (Builder.run {} (steps ++ [s])).written.toList := by
  refine ⟨tracks_run steps, renders_run steps, fun s => ?_⟩
  rw [run_concat, toList_written_step]
  exact List.prefix_append ..

example : render [.opening "<", .line " a\t\n\n\u00a0\nb ", .closing ">", .closing "c", .line "d"] =
    "<\n   a\n\n\n  b\n>\nc\nd\n" := by decide

end CommandSchema.Layout
