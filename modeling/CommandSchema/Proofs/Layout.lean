import CommandSchema.Layout
import CommandSchema.Proofs.Text.Pieces

/-!
# Rendered text cut into lines

A rendered description is cut into the lines it was made of.

* `toList_written_run`, `level_run`: the builder after steps, by the lines and the level of these.
* `pieces_render`: the lines of a rendered text.
* `exists_render_append`, `render_eq_of_append`: a part of a rendered text.
* `FillsLine`, `textLines_of_fillsLine`: a text that is one line at every level.
* `textLines_append`: the line of a text whose start is known.
* `Lacks`: a line that is not written.
-/

namespace CommandSchema.Text

/-- A text that ends in a visible character has no white space to lose at its end. -/
theorem trimEnd_append_singleton {c : Char} (h : isBlank c = false) (cs : List Char) :
    trimEnd (cs ++ [c]) = cs ++ [c] := by
  simp [trimEnd, h]

theorem mem_of_mem_trimEnd {cs : List Char} {c : Char} (h : c ∈ trimEnd cs) : c ∈ cs := by
  rw [trimEnd, List.mem_reverse] at h
  exact List.mem_reverse.1 ((List.dropWhile_sublist _).mem h)

theorem isPrefix_trimEnd (cs : List Char) : trimEnd cs <+: cs := by
  rw [trimEnd, ← List.reverse_suffix, List.reverse_reverse]
  exact List.dropWhile_suffix _

/-- White space at the end of a text goes, and what stands before a visible character stays. -/
theorem trimEnd_append_cons {c : Char} (h : isBlank c = false) (as cs : List Char) :
    trimEnd (as ++ c :: cs) = as ++ c :: trimEnd cs := by
  have hs : as ++ c :: cs = (as ++ [c]) ++ cs := by simp
  rw [hs, trimEnd, List.reverse_append, List.dropWhile_append]
  split
  · next he =>
    have hnil : trimEnd cs = [] := by simpa [trimEnd] using he
    have hall : (as ++ [c]).reverse.dropWhile isBlank = (as ++ [c]).reverse := by simp [h]
    rw [hall, hnil, List.reverse_reverse]
  · rw [List.reverse_append, List.reverse_reverse, ← trimEnd]
    simp

end CommandSchema.Text

namespace CommandSchema.Layout

open Text

/-! ## Steps -/

@[simp] theorem levelAfter_nil (level : Nat) : levelAfter level [] = level := rfl

@[simp] theorem levelAfter_cons (level : Nat) (s : Step) (steps : List Step) :
    levelAfter level (s :: steps) = levelAfter (s.level level) steps := rfl

@[simp] theorem linesFrom_nil (level : Nat) : linesFrom level [] = [] := rfl

@[simp] theorem linesFrom_cons (level : Nat) (s : Step) (steps : List Step) :
    linesFrom level (s :: steps) = s.lines level ++ linesFrom (s.level level) steps := rfl

/-! ## Lines -/

theorem newline_not_mem_indented {level : Nat} {line : List Char} (h : '\n' ∉ line) :
    '\n' ∉ indented level line := by
  intro hm
  obtain hm | hm := List.mem_append.1 (mem_of_mem_trimEnd hm)
  · exact absurd (List.eq_of_mem_replicate hm) (by decide)
  · exact h hm

theorem newline_not_mem_textLines {level : Nat} {text : String} {line : List Char}
    (h : line ∈ textLines level text) : '\n' ∉ line := by
  obtain ⟨piece, hp, rfl⟩ := List.mem_map.1 h
  exact newline_not_mem_indented fun hn => (mem_pieces hp _ hn).2 rfl

theorem newline_not_mem_linesFrom {steps : List Step} {level : Nat} {line : List Char}
    (h : line ∈ linesFrom level steps) : '\n' ∉ line := by
  induction steps generalizing level with
  | nil => simp [linesFrom] at h
  | cons s steps ih =>
    obtain h | h := List.mem_append.1 h
    · cases s with
      | line text | opening text | closing text => exact newline_not_mem_textLines h
      | blank => obtain rfl := List.mem_singleton.1 h; simp
      | indent | dedent => cases h
    · exact ih h

/-! ## The builder -/

@[simp] theorem level_line (b : Builder) (text : String) : (b.line text).level = b.level := rfl

@[simp] theorem toList_written_line (b : Builder) (text : String) :
    (b.line text).written.toList = b.written.toList ++ textLines b.level text := by
  simp [Builder.line, textLines]

@[simp] theorem level_step (b : Builder) (s : Step) : (b.step s).level = s.level b.level := by
  cases s <;> rfl

@[simp] theorem toList_written_step (b : Builder) (s : Step) :
    (b.step s).written.toList = b.written.toList ++ s.lines b.level := by
  cases s with
  | line text | opening text | closing text => exact toList_written_line ..
  | blank => simp [Builder.step, Builder.blank, Step.lines]
  | indent | dedent => exact (List.append_nil _).symm

theorem run_append (b : Builder) (first second : List Step) :
    b.run (first ++ second) = (b.run first).run second := List.foldl_append ..

@[simp] theorem level_run (b : Builder) (steps : List Step) :
    (b.run steps).level = levelAfter b.level steps := by
  induction steps generalizing b with
  | nil => rfl
  | cons s steps ih =>
    show ((b.step s).run steps).level = _
    rw [ih, level_step, levelAfter_cons]

@[simp] theorem toList_written_run (b : Builder) (steps : List Step) :
    (b.run steps).written.toList = b.written.toList ++ linesFrom b.level steps := by
  induction steps generalizing b with
  | nil => simp [Builder.run]
  | cons s steps ih =>
    show ((b.step s).run steps).written.toList = _
    rw [ih, toList_written_step, level_step, linesFrom_cons, List.append_assoc]

/-- A builder that starts anew writes the lines of the description. -/
theorem toList_written (steps : List Step) :
    (Builder.run {} steps).written.toList = lines steps := by
  rw [toList_written_run]
  rfl

/-! ## The text of a description -/

/-- Lines that are joined, with a line feed at the end, are ended by one each. -/
theorem intercalate_append {sep : Char} {ls : List (List Char)} (h : ls ≠ []) :
    [sep].intercalate ls ++ [sep] = ls.flatMap fun l => l ++ [sep] := by
  induction ls with
  | nil => exact absurd rfl h
  | cons l ls ih =>
    cases ls with
    | nil => simp [List.intercalate_singleton]
    | cons l' ls => rw [List.intercalate_cons_cons, List.append_assoc, ih (by simp)]; simp

theorem render_eq (steps : List Step) :
    render steps = .ofList (['\n'].intercalate (lines steps) ++ ['\n']) := by
  rw [render, Builder.finish, toList_written]

/-- The text of a description is given by its lines. -/
theorem render_congr {a b : List Step} (h : lines a = lines b) : render a = render b := by
  rw [render_eq, render_eq, h]

theorem render_of_lines_eq_nil {steps : List Step} (h : lines steps = []) : render steps = "\n" := by
  rw [render_eq, h]
  rfl

theorem toList_render {steps : List Step} (h : lines steps ≠ []) :
    (render steps).toList = (lines steps).flatMap fun l => l ++ ['\n'] := by
  rw [render_eq, String.toList_ofList, intercalate_append h]

/-- A rendered text is cut into its lines; nothing follows the last line feed. -/
theorem pieces_render {steps : List Step} (h : lines steps ≠ []) :
    pieces '\n' (render steps).toList = lines steps ++ [[]] := by
  have hn : ∀ l ∈ lines steps, '\n' ∉ l := fun l hl => newline_not_mem_linesFrom hl
  rw [toList_render h, pieces_flatMap_end hn]

/-- The text of steps at the outermost level is a part of the whole text. -/
theorem exists_render_append {before steps after : List Step} (hbefore : levelAfter 0 before = 0)
    (hsteps : levelAfter 0 steps = 0) (hne : lines steps ≠ []) :
    ∃ front back, render (before ++ steps ++ after) = front ++ render steps ++ back := by
  have hlines : lines (before ++ steps ++ after) = lines before ++ lines steps ++ lines after := by
    simp only [lines, linesFrom_append, levelAfter_append, hbefore, hsteps]
  refine ⟨.ofList ((lines before).flatMap (· ++ ['\n'])),
    .ofList ((lines after).flatMap (· ++ ['\n'])), String.toList_inj.1 ?_⟩
  rw [toList_render (by rw [hlines]; simp [hne]), hlines]
  simp [toList_render hne]

/-- The text of steps at the outermost level is known from the whole text and what stands around
it. -/
theorem render_eq_of_append {before a b after : List Step} (hbefore : levelAfter 0 before = 0)
    (ha : levelAfter 0 a = 0) (hb : levelAfter 0 b = 0) (hane : lines a ≠ []) (hbne : lines b ≠ [])
    (h : render (before ++ a ++ after) = render (before ++ b ++ after)) : render a = render b := by
  have hlines : ∀ steps, levelAfter 0 steps = 0 →
      lines (before ++ steps ++ after) = lines before ++ lines steps ++ lines after := by
    intro steps hsteps
    simp only [lines, linesFrom_append, levelAfter_append, hbefore, hsteps]
  have hpieces := congrArg (fun text : String => pieces '\n' text.toList) h
  rw [pieces_render (by rw [hlines a ha]; simp [hane]), hlines a ha,
    pieces_render (by rw [hlines b hb]; simp [hbne]), hlines b hb] at hpieces
  exact render_congr (by simpa using hpieces)

theorem levelAfter_flatMap {α : Type} {f : α → List Step} {l : List α}
    (h : ∀ a ∈ l, levelAfter 0 (f a) = 0) : levelAfter 0 (l.flatMap f) = 0 := by
  induction l with
  | nil => rfl
  | cons a l ih =>
    rw [List.flatMap_cons, levelAfter_append, h a List.mem_cons_self]
    exact ih fun b hb => h b (List.mem_cons_of_mem _ hb)

/-! ## Texts that are lines -/

/-- The text is one line up to a visible end. -/
def FillsLine (text : String) : Prop :=
  '\n' ∉ text.toList ∧ ∃ cs c, text.toList = cs ++ [c] ∧ isBlank c = false

/-- A text behind the indentation of a level. -/
def lineAt (level : Nat) (text : String) : List Char :=
  List.replicate (2 * level) ' ' ++ text.toList

theorem lineAt_zero (text : String) : lineAt 0 text = text.toList := rfl

/-- Such a text stands behind its indentation as it is. -/
theorem textLines_of_fillsLine (text : String) (h : FillsLine text) (level : Nat) :
    textLines level text = [lineAt level text] := by
  obtain ⟨hn, cs, c, hs, hc⟩ := h
  rw [textLines, pieces_of_not_mem hn, List.map_singleton, indented, lineAt, hs,
    ← List.append_assoc, trimEnd_append_singleton hc]

theorem fillsLine_of_getLast? {text : String} {c : Char} (hn : '\n' ∉ text.toList)
    (h : text.toList.getLast? = some c) (hc : isBlank c = false) : FillsLine text := by
  obtain ⟨cs, hs⟩ := List.getLast?_eq_some_iff.1 h
  exact ⟨hn, cs, c, hs, hc⟩

/-- A literal is a text of characters that are known. -/
theorem fillsLine_ofList {cs : List Char} {c : Char} (hn : '\n' ∉ cs) (h : cs.getLast? = some c)
    (hc : isBlank c = false) : FillsLine (.ofList cs) :=
  fillsLine_of_getLast? (by rwa [String.toList_ofList]) (by rwa [String.toList_ofList]) hc

theorem getLast?_toList_append (a : String) {b : String} {c : Char}
    (h : b.toList.getLast? = some c) : (a ++ b).toList.getLast? = some c := by
  rw [String.toList_append, List.getLast?_append, h]
  rfl

theorem fillsLine_append {a b : String} (ha : '\n' ∉ a.toList) (hb : FillsLine b) :
    FillsLine (a ++ b) := by
  obtain ⟨hn, cs, c, hs, hc⟩ := hb
  refine ⟨?_, a.toList ++ cs, c, ?_, hc⟩
  · rw [String.toList_append, List.mem_append, not_or]
    exact ⟨ha, hn⟩
  · rw [String.toList_append, hs, List.append_assoc]

/-- White space at the end of a line goes, and a start with a visible end stays. -/
theorem textLines_append {start rest : String} {c : Char} (hlast : start.toList.getLast? = some c)
    (hc : isBlank c = false) (hn : '\n' ∉ (start ++ rest).toList) (level : Nat) :
    textLines level (start ++ rest) = [lineAt level start ++ trimEnd rest.toList] := by
  obtain ⟨cs, hcs⟩ := List.getLast?_eq_some_iff.1 hlast
  rw [textLines, pieces_of_not_mem hn, List.map_singleton, indented, String.toList_append, lineAt,
    hcs, List.append_assoc, List.singleton_append, ← List.append_assoc, trimEnd_append_cons hc,
    List.append_assoc, List.append_assoc, List.append_assoc, List.singleton_append]

/-! ## Lines that are not written -/

/-- The steps leave the outermost level as it was and do not write a line. -/
structure Lacks (line : List Char) (steps : List Step) : Prop where
  level : levelAfter 0 steps = 0
  line : line ∉ lines steps

theorem lacks_of_head {line : List Char} {steps : List Step} (hlevel : levelAfter 0 steps = 0)
    (h : ∀ l ∈ lines steps, l.head? ≠ line.head?) : Lacks line steps :=
  ⟨hlevel, fun hm => h line hm rfl⟩

theorem Lacks.append {line : List Char} {a b : List Step} (ha : Lacks line a) (hb : Lacks line b) :
    Lacks line (a ++ b) where
  level := by rw [levelAfter_append, ha.level, hb.level]
  line := by
    rw [lines, linesFrom_append, ha.level, List.mem_append, not_or]
    exact ⟨ha.line, hb.line⟩

theorem Lacks.flatMap {α : Type} {line : List Char} {f : α → List Step} {l : List α}
    (h : ∀ a ∈ l, Lacks line (f a)) : Lacks line (l.flatMap f) := by
  induction l with
  | nil => exact ⟨rfl, List.not_mem_nil⟩
  | cons a l ih =>
    rw [List.flatMap_cons]
    exact (h a List.mem_cons_self).append (ih fun b hb => h b (List.mem_cons_of_mem _ hb))

theorem lacks_line {line : List Char} {text : String} (h : FillsLine text)
    (hne : line ≠ text.toList) : Lacks line [.line text] where
  level := rfl
  line := by
    rw [lines, linesFrom_cons, linesFrom_nil, List.append_nil, Step.lines,
      textLines_of_fillsLine text h, lineAt_zero, List.mem_singleton]
    exact hne

end CommandSchema.Layout
