import CommandSchema.Proofs.Layout
import CommandSchema.Proofs.Text.Lines

/-!
# Views of generated texts

A view takes entries from the lines of a text. It does so piece by piece, where a piece of the text
starts outside of the blocks before it; so what it takes from a description follows from what it
takes from its parts.

* `View`: a view; `View.ofText`: what it takes from a text.
* `View.ofLines`: a view that reads line by line; `View.after`, `View.innerAfter`: the views of what
  follows an introduction.
* `View.ofBlocks`: a view that reads a line with the block under it; `View.blocksAfter`: the view of
  what follows an introduction and of the block under it.
* `blocksAfter`: such blocks of a text.
* `Shows`: what a view takes from a description; `Shows.render`: it takes the same from the
  rendered text.
* `Starts`: what the lines of a description start with; `View.Ignores`: a view that takes nothing
  from such lines.
-/

namespace CommandSchema.Layout

open Text

/-! ## Views -/

/-- The line is inside a block. -/
def isInner (line : List Char) : Bool := line.head? == some ' '

/-- The lines do not go on with a block. -/
def Outside (ls : List (List Char)) : Prop := ls.takeWhile isInner = []

instance (ls : List (List Char)) : Decidable (Outside ls) := inferInstanceAs (Decidable (_ = _))

/-- What is taken from the lines of a text, piece by piece. -/
structure View (α : Type) where
  of : List (List Char) → List α
  append : ∀ {a b}, Outside b → of (a ++ b) = of a ++ of b
  blank : of [[]] = []

theorem Outside.append {a b : List (List Char)} (ha : Outside a) (hb : Outside b) :
    Outside (a ++ b) := by
  cases a with
  | nil => exact hb
  | cons l a =>
    unfold Outside at ha ⊢
    rw [List.takeWhile_cons] at ha
    rw [List.cons_append, List.takeWhile_cons]
    split at ha
    · cases ha
    · next hl => rw [if_neg hl]

namespace View

variable {α : Type}

theorem of_nil (v : View α) : v.of [] = [] := by
  have h : v.of ([[]] ++ []) = v.of [[]] ++ v.of [] := v.append rfl
  rwa [List.append_nil, v.blank, List.nil_append, eq_comm] at h

/-- What a view takes from a text. -/
def ofText (v : View α) (text : String) : List α := v.of (pieces '\n' text.toList)

/-- What a reader takes from each line. -/
def ofLines (read? : List Char → Option α) (hempty : read? [] = none) : View α where
  of ls := ls.filterMap read?
  append _ := List.filterMap_append
  blank := by simp [hempty]

/-- What a reader of single lines and the lines of the block under each of them gives. -/
def blockEntries (read? : List Char → Option α) :
    List (List Char) → List (α × List (List Char))
  | [] => []
  | l :: ls =>
    match read? l with
    | some a => (a, ls.takeWhile isInner) :: blockEntries read? ls
    | none => blockEntries read? ls

theorem blockEntries_eq_nil {read? : List Char → Option α} {ls : List (List Char)}
    (h : ∀ l ∈ ls, read? l = none) : blockEntries read? ls = [] := by
  induction ls with
  | nil => rfl
  | cons l ls ih =>
    obtain ⟨hl, hls⟩ := List.forall_mem_cons.1 h
    rw [blockEntries, hl]
    exact ih hls

theorem blockEntries_append {read? : List Char → Option α} {a b : List (List Char)}
    (hb : Outside b) :
    blockEntries read? (a ++ b) = blockEntries read? a ++ blockEntries read? b := by
  have hblock : ∀ a : List (List Char), (a ++ b).takeWhile isInner = a.takeWhile isInner := by
    intro a
    rw [List.takeWhile_append]
    split
    · next ha => rw [hb, List.append_nil, (List.takeWhile_prefix isInner).eq_of_length ha]
    · rfl
  induction a with
  | nil => rfl
  | cons l a ih =>
    rw [List.cons_append, blockEntries, blockEntries, hblock, ih]
    cases read? l <;> rfl

/-- What a reader takes from each line, with the block under it. -/
def ofBlocks (read? : List Char → Option α) (hempty : read? [] = none) :
    View (α × List (List Char)) where
  of := blockEntries read?
  append := blockEntries_append
  blank := by simp [blockEntries, hempty]

/-- What follows one of several introductions, each with the block under it. -/
def blocksAfter (introductions : List String) (h : after? introductions [] = none) :
    View (String × List (List Char)) :=
  ofBlocks (after? introductions) h

/-- What follows one of several introductions. -/
def after (introductions : List String) (h : after? introductions [] = none) : View String :=
  ofLines (after? introductions) h

/-- What follows one of several introductions, behind any indentation. -/
def innerAfter (introductions : List String) (h : after? introductions (dropIndent []) = none) :
    View String :=
  ofLines (fun l => after? introductions (dropIndent l)) h

end View

/-- A line with the lines of the block under it as texts, without their indentation. -/
def unindentBlock (entry : String × List (List Char)) : String × List String :=
  (entry.1, entry.2.map fun l => .ofList (dropIndent l))

/-- What follows one of several introductions on the lines of a text, each with the block under
it. -/
def blocksAfter (introductions : List String) (text : String) : List (String × List String) :=
  (View.blockEntries (after? introductions) (pieces '\n' text.toList)).map unindentBlock

/-! ## Views of descriptions -/

section Shows

variable {α β : Type} {v : View α}

/-- The steps start and end at the outermost level, and a view takes this from their lines. -/
structure Shows (v : View α) (steps : List Step) (found : List α) : Prop where
  level : levelAfter 0 steps = 0
  outside : Outside (lines steps)
  found : v.of (lines steps) = found

theorem lines_append {a b : List Step} (ha : levelAfter 0 a = 0) :
    lines (a ++ b) = lines a ++ lines b := by
  rw [lines, linesFrom_append, ha]
  rfl

theorem Shows.append {a b : List Step} {as bs : List α} (ha : Shows v a as) (hb : Shows v b bs) :
    Shows v (a ++ b) (as ++ bs) where
  level := by rw [levelAfter_append, ha.level, hb.level]
  outside := by
    rw [lines_append ha.level]
    exact ha.outside.append hb.outside
  found := by rw [lines_append ha.level, v.append hb.outside, ha.found, hb.found]

/-- A line on which a reader reads something is not there if it takes nothing. -/
theorem Shows.not_mem {read? : List Char → Option α} {hempty : read? [] = none} {steps : List Step}
    (h : Shows (.ofLines read? hempty) steps []) {l : List Char} (hl : (read? l).isSome = true) :
    l ∉ lines steps := fun hm => by
  have hnone : read? l = none := List.filterMap_eq_nil_iff.1 h.found l hm
  simp [hnone] at hl

/-- There is no block where a reader reads no line. -/
theorem Shows.ofBlocks {read? : List Char → Option α} {hempty : read? [] = none}
    {steps : List Step} (h : Shows (.ofLines read? hempty) steps []) :
    Shows (.ofBlocks read? hempty) steps [] :=
  ⟨h.level, h.outside, View.blockEntries_eq_nil (List.filterMap_eq_nil_iff.1 h.found)⟩

theorem Shows.nil : Shows v [] [] := ⟨rfl, rfl, v.of_nil⟩

theorem Shows.blank : Shows v [.blank] [] := ⟨rfl, rfl, v.blank⟩

theorem Shows.flatMap {f : β → List Step} {g : β → List α} {l : List β}
    (h : ∀ b ∈ l, Shows v (f b) (g b)) : Shows v (l.flatMap f) (l.flatMap g) := by
  induction l with
  | nil => exact Shows.nil
  | cons b l ih =>
    rw [List.flatMap_cons, List.flatMap_cons]
    exact (h b List.mem_cons_self).append (ih fun c hc => h c (List.mem_cons_of_mem _ hc))

/-- One entry for each member of a list. -/
theorem Shows.flatMap_singleton {f : β → List Step} {g : β → α} {l : List β}
    (h : ∀ b ∈ l, Shows v (f b) [g b]) : Shows v (l.flatMap f) (l.map g) := by
  have hall := Shows.flatMap h
  rwa [← List.map_eq_flatMap] at hall

/-- A view takes from a rendered text what it takes from the description. -/
theorem Shows.render {steps : List Step} {found : List α} (h : Shows v steps found) :
    v.ofText (render steps) = found := by
  by_cases hl : lines steps = []
  · have hrender : Layout.render steps = "\n" := render_of_lines_eq_nil hl
    have htwo : v.of ([[]] ++ [[]]) = v.of [[]] ++ v.of [[]] := v.append rfl
    have hfound := h.found
    rw [hl, v.of_nil] at hfound
    rw [hrender, ← hfound]
    exact htwo.trans (by rw [v.blank, List.append_nil])
  · have hend : Outside ([[]] : List (List Char)) := rfl
    rw [View.ofText, pieces_render hl, v.append hend, v.blank, List.append_nil, h.found]

theorem Shows.linesAfter {introductions : List String} {hnil : after? introductions [] = none}
    {steps : List Step} {found : List String} (h : Shows (.after introductions hnil) steps found) :
    Text.linesAfter introductions (Layout.render steps) = found := h.render

end Shows

/-! ## Lines and blocks -/

section Blocks

variable {α : Type} {opening closing : String} {items : List String}

/-- A block: a line of its own, lines one level in, and a line that closes it. -/
def block (opening : String) (items : List String) (closing : String) : List Step :=
  .opening opening :: items.map .line ++ [.closing closing]

theorem outside_cons {text : String} (h : text.toList.head? ≠ some ' ') (ls : List (List Char)) :
    Outside (text.toList :: ls) := by
  have hout : isInner text.toList = false := by simpa [isInner] using h
  rw [Outside, List.takeWhile_cons, hout]
  rfl

theorem filterMap_singleton {β : Type} (read? : β → Option α) (b : β) :
    [b].filterMap read? = (read? b).toList := by
  cases h : read? b with
  | none => rw [List.filterMap_cons_none h]; rfl
  | some a => rw [List.filterMap_cons_some h]; rfl

theorem lines_line {text : String} (h : FillsLine text) : lines [.line text] = [text.toList] := by
  rw [lines, linesFrom_cons, linesFrom_nil, List.append_nil, Step.lines,
    textLines_of_fillsLine text h, lineAt_zero]

theorem shows_line {read? : List Char → Option α} {hempty : read? [] = none} {text : String}
    (h : FillsLine text) (hhead : text.toList.head? ≠ some ' ') :
    Shows (.ofLines read? hempty) [.line text] (read? text.toList).toList := by
  have hlines := lines_line h
  refine ⟨rfl, ?_, ?_⟩
  · rw [hlines]
    exact outside_cons hhead []
  · rw [hlines]
    exact filterMap_singleton ..

theorem linesFrom_map_line (hitems : ∀ item ∈ items, '\n' ∉ item.toList) (level : Nat)
    (steps : List Step) :
    linesFrom level (items.map .line ++ steps) =
        items.map (fun item => indented level item.toList) ++ linesFrom level steps ∧
      levelAfter level (items.map .line ++ steps) = levelAfter level steps := by
  induction items with
  | nil => exact ⟨rfl, rfl⟩
  | cons item items ih =>
    obtain ⟨hitem, hrest⟩ := List.forall_mem_cons.1 hitems
    obtain ⟨hlines, hlevel⟩ := ih hrest
    rw [List.map_cons, List.cons_append, linesFrom_cons, levelAfter_cons, Step.lines, Step.level,
      textLines, pieces_of_not_mem hitem, hlines, hlevel]
    exact ⟨rfl, rfl⟩

theorem indented_of_fillsLine {text : String} (h : FillsLine text) (level : Nat) :
    indented level text.toList = lineAt level text := by
  have hlines := textLines_of_fillsLine text h level
  rw [textLines, pieces_of_not_mem h.1] at hlines
  exact List.singleton_inj.1 hlines

theorem lines_block (hopening : FillsLine opening) (hitems : ∀ item ∈ items, '\n' ∉ item.toList)
    (hclosing : FillsLine closing) :
    lines (block opening items closing) = opening.toList ::
        (items.map (fun item => indented 1 item.toList) ++ [closing.toList]) ∧
      levelAfter 0 (block opening items closing) = 0 := by
  obtain ⟨hlines, hlevel⟩ := linesFrom_map_line hitems 1 [.closing closing]
  constructor
  · rw [block, lines, List.cons_append, linesFrom_cons, Step.lines, Step.level,
      textLines_of_fillsLine opening hopening, hlines, linesFrom_cons, linesFrom_nil, Step.lines,
      textLines_of_fillsLine closing hclosing, lineAt_zero, lineAt_zero]
    rfl
  · exact hlevel

/-- What a reader of lines takes from a block of which it reads the first line alone. -/
theorem shows_block {read? : List Char → Option α} {hempty : read? [] = none}
    (hopening : FillsLine opening) (hitems : ∀ item ∈ items, '\n' ∉ item.toList)
    (hclosing : FillsLine closing) (hhead : opening.toList.head? ≠ some ' ')
    (hinner : ∀ item ∈ items, read? (indented 1 item.toList) = none)
    (hlast : read? closing.toList = none) :
    Shows (.ofLines read? hempty) (block opening items closing) (read? opening.toList).toList := by
  obtain ⟨hlines, hlevel⟩ := lines_block hopening hitems hclosing
  have hnone : (items.map fun item => indented 1 item.toList).filterMap read? = [] := by
    rw [List.filterMap_map]
    exact List.filterMap_eq_nil_iff.2 hinner
  refine ⟨hlevel, ?_, ?_⟩
  · rw [hlines]
    exact outside_cons hhead _
  · rw [hlines]
    show ([opening.toList] ++ (items.map _ ++ [closing.toList])).filterMap read? = _
    rw [List.filterMap_append, List.filterMap_append, hnone, filterMap_singleton,
      filterMap_singleton, hlast]
    simp

/-- A line with no block under it. -/
theorem shows_line_entry {read? : List Char → Option α} {hempty : read? [] = none} {text : String}
    (h : FillsLine text) (hhead : text.toList.head? ≠ some ' ') {a : α}
    (hread : read? text.toList = some a) :
    Shows (.ofBlocks read? hempty) [.line text] [(a, [])] := by
  have hlines := lines_line h
  refine ⟨rfl, ?_, ?_⟩
  · rw [hlines]
    exact outside_cons hhead []
  · rw [hlines]
    show View.blockEntries read? [text.toList] = _
    rw [View.blockEntries, hread]
    rfl

/-- A block is taken as a whole by a reader of its first line. -/
theorem shows_block_entry {read? : List Char → Option α} {hempty : read? [] = none}
    (hopening : FillsLine opening) (hitems : ∀ item ∈ items, FillsLine item)
    (hclosing : FillsLine closing) (hhead : opening.toList.head? ≠ some ' ')
    (hend : closing.toList.head? ≠ some ' ')
    (hinner : ∀ item ∈ items, read? (lineAt 1 item) = none)
    (hlast : read? closing.toList = none) {a : α}
    (hread : read? opening.toList = some a) :
    Shows (.ofBlocks read? hempty) (block opening items closing)
      [(a, items.map (lineAt 1))] := by
  obtain ⟨hlines, hlevel⟩ := lines_block hopening (fun item hi => (hitems item hi).1) hclosing
  have hmap : items.map (fun item => indented 1 item.toList) = items.map (lineAt 1) :=
    List.map_congr_left fun item hi => indented_of_fillsLine (hitems item hi) 1
  rw [hmap] at hlines
  have hnone : View.blockEntries read? (items.map (lineAt 1) ++ [closing.toList]) = [] := by
    refine View.blockEntries_eq_nil fun l hl => ?_
    obtain hl | hl := List.mem_append.1 hl
    · obtain ⟨item, hitem, rfl⟩ := List.mem_map.1 hl
      exact hinner item hitem
    · rw [List.mem_singleton.1 hl, hlast]
  have hblock : (items.map (lineAt 1) ++ [closing.toList]).takeWhile isInner =
      items.map (lineAt 1) := by
    rw [List.takeWhile_append_of_pos fun l hl => ?_, outside_cons hend, List.append_nil]
    obtain ⟨item, -, rfl⟩ := List.mem_map.1 hl
    rfl
  refine ⟨hlevel, ?_, ?_⟩
  · rw [hlines]
    exact outside_cons hhead _
  · rw [hlines]
    show View.blockEntries read? (opening.toList :: _) = _
    rw [View.blockEntries, hread]
    simp only [hblock, hnone]

end Blocks

/-! ## Lines by what they start with -/

/-- The steps start and end at the outermost level, and each of their lines is empty or starts with
one of these texts. -/
structure Starts (starts : List String) (steps : List Step) : Prop where
  level : levelAfter 0 steps = 0
  lines : ∀ l ∈ lines steps, l = [] ∨ ∃ start ∈ starts, start.toList <+: l

section Starts

variable {starts : List String} {α β : Type}

theorem Starts.append {a b : List Step} (ha : Starts starts a) (hb : Starts starts b) :
    Starts starts (a ++ b) where
  level := by rw [levelAfter_append, ha.level, hb.level]
  lines := by
    intro l hl
    rw [lines_append ha.level, List.mem_append] at hl
    exact hl.elim (ha.lines l) (hb.lines l)

theorem Starts.nil : Starts starts [] := ⟨rfl, fun _ hl => nomatch hl⟩

theorem Starts.flatMap {f : β → List Step} {l : List β} (h : ∀ b ∈ l, Starts starts (f b)) :
    Starts starts (l.flatMap f) := by
  induction l with
  | nil => exact Starts.nil
  | cons b l ih =>
    rw [List.flatMap_cons]
    exact (h b List.mem_cons_self).append (ih fun c hc => h c (List.mem_cons_of_mem _ hc))

theorem Starts.blank : Starts starts [.blank] := by
  refine ⟨rfl, fun l hl => .inl ?_⟩
  exact List.mem_singleton.1 hl

/-- A line that starts with a text that has a visible end, whatever follows on it. -/
theorem starts_line (start rest : String) (hm : start ∈ starts) {c : Char}
    (hlast : start.toList.getLast? = some c) (hc : isBlank c = false) {text : String}
    (htext : text = start ++ rest) (hn : '\n' ∉ text.toList) : Starts starts [.line text] where
  level := rfl
  lines := by
    subst htext
    intro l hl
    rw [Layout.lines, linesFrom_cons, linesFrom_nil, List.append_nil, Step.lines,
      textLines_append hlast hc hn 0, List.mem_singleton] at hl
    exact .inr ⟨start, hm, trimEnd rest.toList, hl.symm⟩

/-- A view takes nothing from lines that are empty or start with one of these texts. -/
def View.Ignores (v : View α) (starts : List String) : Prop :=
  ∀ ls : List (List Char), (∀ l ∈ ls, l = [] ∨ ∃ start ∈ starts, start.toList <+: l) → v.of ls = []

theorem Starts.shows {v : View α} {steps : List Step} (h : Starts starts steps)
    (hv : v.Ignores starts) (hstarts : ∀ start ∈ starts, start.toList.head?.any (· ≠ ' ') = true) :
    Shows v steps [] where
  level := h.level
  outside := by
    unfold Outside
    cases hl : Layout.lines steps with
    | nil => rfl
    | cons l ls =>
      have hout : isInner l = false := by
        obtain rfl | ⟨start, hs, rest, rfl⟩ := h.lines l (by rw [hl]; exact List.mem_cons_self)
        · rfl
        · obtain ⟨c, cs, hcs, hc⟩ := exists_cons_of_head (hstarts start hs)
          simpa [hcs, isInner] using hc
      rw [List.takeWhile_cons, hout]
      rfl
  found := hv _ h.lines

/-- A reader of lines takes nothing from lines on which it reads nothing. -/
theorem View.ignores_ofLines {read? : List Char → Option α} {hempty : read? [] = none}
    (h : ∀ start ∈ starts, ∀ rest, read? (start.toList ++ rest) = none) :
    (View.ofLines read? hempty).Ignores starts := by
  intro ls hls
  refine List.filterMap_eq_nil_iff.2 fun l hl => ?_
  obtain rfl | ⟨start, hs, rest, rfl⟩ := hls l hl
  · exact hempty
  · exact h start hs rest

theorem View.ignores_ofBlocks {read? : List Char → Option α} {hempty : read? [] = none}
    (h : ∀ start ∈ starts, ∀ rest, read? (start.toList ++ rest) = none) :
    (View.ofBlocks read? hempty).Ignores starts := by
  intro ls hls
  refine blockEntries_eq_nil fun l hl => ?_
  obtain rfl | ⟨start, hs, rest, rfl⟩ := hls l hl
  · exact hempty
  · exact h start hs rest

theorem View.ignores_after {introductions : List String} {h : after? introductions [] = none}
    (hclash : ∀ start ∈ starts, ∀ i ∈ introductions, Clash i.toList start.toList) :
    (View.after introductions h).Ignores starts :=
  View.ignores_ofLines fun start hs rest => after?_append_eq_none (hclash start hs) rest

theorem View.ignores_blocksAfter {introductions : List String}
    {h : after? introductions [] = none}
    (hclash : ∀ start ∈ starts, ∀ i ∈ introductions, Clash i.toList start.toList) :
    (View.blocksAfter introductions h).Ignores starts :=
  View.ignores_ofBlocks fun start hs rest => after?_append_eq_none (hclash start hs) rest

theorem View.ignores_innerAfter {introductions : List String}
    {h : after? introductions (dropIndent []) = none}
    (hstarts : ∀ start ∈ starts, start.toList.head?.any (· ≠ ' ') = true)
    (hclash : ∀ start ∈ starts, ∀ i ∈ introductions, Clash i.toList start.toList) :
    (View.innerAfter introductions h).Ignores starts :=
  View.ignores_ofLines fun start hs rest =>
    after?_dropIndent_eq_none (hstarts start hs) (hclash start hs) rest

end Starts

end CommandSchema.Layout
