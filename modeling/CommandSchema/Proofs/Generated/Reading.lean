import CommandSchema.Generated.Code
import CommandSchema.Proofs.Layout

/-!
# Code read from its text

Structured code is read back from the lines that it is laid out on. A line is an instruction if it
ends in a semicolon; otherwise it opens or closes a block or goes from one arm of a chain to the
next. The lines are read from the last one to the first one, so a closing brace starts a block and
the head of the block ends it.

* `Grammar`: how the instructions, heads and tests of a function are read.
* `Grammar.code?`: the code of a list of lines.
* `Grammar.code?_linesFrom`: code that is laid out is read back.
-/

namespace CommandSchema.Generated

open Layout

variable {I H T : Type}

/-- How the parts of code are read from texts without indentation: an instruction with its
semicolon, a head with its opening brace, and a test without its parentheses. A chain starts with
the head of a block that is run if a test holds. -/
structure Grammar (I H T : Type) where
  instruction? : List Char → Option I
  head? : List Char → Option H
  test? : List Char → Option T
  when : T → H
  asTest? : H → Option T
  asTest?_when : ∀ t, asTest? (when t) = some t

/-- What a line says. -/
inductive Mark (I H T : Type) where
  | instruction (instruction : I)
  /-- Opens a block. -/
  | opening (head : H)
  /-- Closes an arm and opens the next one. -/
  | arm (test : T)
  /-- Closes the last arm with a test and opens the code where no test holds. -/
  | otherwise
  /-- Closes a block. -/
  | closing

/-- A line without the pairs of spaces that indent it. -/
def unindent : List Char → List Char
  | ' ' :: ' ' :: cs => unindent cs
  | cs => cs

/-! ## The reader -/

/-- What has been read of the code around a block, up to the end of the block: the code after it
and, for an arm, the arms that follow. -/
structure Frame (I H T : Type) where
  next : Code I H T
  arms : Option (Arms I H T) := none

/-- What has been read of code from its end: the rest of the block at hand, and the code around it,
innermost first. -/
abbrev Partial (I H T : Type) := Code I H T × List (Frame I H T)

namespace Grammar

variable (G : Grammar I H T)

/-- What a line says that is no instruction. -/
def bracket? (line : List Char) : Option (Mark I H T) :=
  if line = "\x7d".toList then some .closing
  else if line = "\x7d else \x7b".toList then some .otherwise
  else match line.dropPrefix? "\x7d else if (".toList with
    | some rest => ((rest.dropSuffix? ") \x7b".toList).bind G.test?).map .arm
    | none => (G.head? line).map .opening

/-- What a line says. -/
def mark? (line : List Char) : Option (Mark I H T) :=
  if line.getLast? = some ';' then (G.instruction? line).map .instruction else G.bracket? line

/-- Puts a line in front of what has been read. -/
def push? : Mark I H T → Partial I H T → Option (Partial I H T)
  | .instruction i, (code, frames) => some (.run i code, frames)
  | .closing, (code, frames) => some (.done, ⟨code, none⟩ :: frames)
  | .otherwise, (code, ⟨next, none⟩ :: frames) =>
    some (.done, ⟨next, some (.otherwise code)⟩ :: frames)
  | .arm test, (code, ⟨next, some arms⟩ :: frames) =>
    some (.done, ⟨next, some (.arm test code arms)⟩ :: frames)
  | .opening head, (code, ⟨next, none⟩ :: frames) => some (.block head code next, frames)
  | .opening head, (code, ⟨next, some arms⟩ :: frames) =>
    (G.asTest? head).map fun test => (.choose (.arm test code arms) next, frames)
  | _, _ => none

/-- Reads lines from their end. -/
def read? : List (List Char) → Option (Partial I H T)
  | [] => some (.done, [])
  | line :: lines =>
    match read? lines, G.mark? (unindent line) with
    | some state, some mark => G.push? mark state
    | _, _ => none

/-- The code of lines that close what they open. -/
def code? (lines : List (List Char)) : Option (Code I H T) :=
  match G.read? lines with
  | some (code, []) => some code
  | _ => none

end Grammar

/-! ## Code with other instructions -/

mutual

/-- The code with other instructions. -/
def Code.map (g : I → I) : Code I H T → Code I H T
  | .done => .done
  | .run i next => .run (g i) (next.map g)
  | .block h body next => .block h (body.map g) (next.map g)
  | .choose arms next => .choose (arms.map g) (next.map g)

/-- The arms with other instructions. -/
def Arms.map (g : I → I) : Arms I H T → Arms I H T
  | .otherwise body => .otherwise (body.map g)
  | .arm test body rest => .arm test (body.map g) (rest.map g)

end

/-- The code with other code after it. -/
def Code.andThen : Code I H T → Code I H T → Code I H T
  | .done, last => last
  | .run i next, last => .run i (next.andThen last)
  | .block h body next, last => .block h body (next.andThen last)
  | .choose arms next, last => .choose arms (next.andThen last)

@[simp] theorem Code.andThen_done : (c : Code I H T) → c.andThen .done = c
  | .done => rfl
  | .run i next => congrArg (Code.run i) next.andThen_done
  | .block h body next => congrArg (Code.block h body) next.andThen_done
  | .choose arms next => congrArg (Code.choose arms) next.andThen_done

/-! ## The lines of code -/

/-- The text of a line. -/
def Mark.text (w : Writing I H T) : Mark I H T → String
  | .instruction i => w.instruction i
  | .opening h => w.head h
  | .arm test => "\x7d else if (" ++ w.test test ++ ") \x7b"
  | .otherwise => "\x7d else \x7b"
  | .closing => "\x7d"

/-- The line with another instruction. -/
def Mark.map (g : I → I) : Mark I H T → Mark I H T
  | .instruction i => .instruction (g i)
  | .opening h => .opening h
  | .arm test => .arm test
  | .otherwise => .otherwise
  | .closing => .closing

theorem unindent_lineAt (level : Nat) (text : String) :
    unindent (lineAt level text) = unindent text.toList := by
  induction level with
  | zero => rfl
  | succ level ih =>
    have hr : lineAt (level + 1) text = ' ' :: ' ' :: lineAt level text := by
      rw [lineAt, Nat.mul_succ, List.replicate_succ, List.replicate_succ]
      rfl
    rw [hr, unindent, ih]

section Lines

variable (w : Writing I H T) (G : Grammar I H T)

mutual

/-- Every line of the code has a property, and every chain starts with an arm. -/
def Code.AllMarks (P : Mark I H T → Prop) : Code I H T → Prop
  | .done => True
  | .run i next => P (.instruction i) ∧ next.AllMarks P
  | .block h body next => P (.opening h) ∧ body.AllMarks P ∧ next.AllMarks P
  | .choose arms next => arms.AllMarks P true ∧ next.AllMarks P

/-- Every line of the arms has a property, and the first of them has a test. -/
def Arms.AllMarks (P : Mark I H T → Prop) (isFirst : Bool) : Arms I H T → Prop
  | .otherwise body => isFirst = false ∧ body.AllMarks P
  | .arm test body rest =>
    P (if isFirst then .opening (G.when test) else .arm test) ∧ body.AllMarks P ∧
      rest.AllMarks P false

end

mutual

/-- The lines of code at a level. -/
def Code.layout (level : Nat) : Code I H T → List (List Char)
  | .done => []
  | .run i next => lineAt level (w.instruction i) :: next.layout level
  | .block h body next =>
    lineAt level (w.head h) :: body.layout (level + 1) ++ lineAt level "\x7d" :: next.layout level
  | .choose arms next => arms.layout level true ++ next.layout level

/-- The lines of arms at the level of their chain. -/
def Arms.layout (level : Nat) (isFirst : Bool) : Arms I H T → List (List Char)
  | .otherwise body =>
    lineAt level "\x7d else \x7b" :: body.layout (level + 1) ++ [lineAt level "\x7d"]
  | .arm test body rest =>
    lineAt level (if isFirst then w.head (G.when test) else (Mark.arm (I := I) test).text w) ::
      body.layout (level + 1) ++ rest.layout level false

end

theorem fillsLine_closing : FillsLine "\x7d" := ⟨by decide, [], '\x7d', rfl, by decide⟩

theorem fillsLine_otherwise : FillsLine "\x7d else \x7b" :=
  ⟨by decide, "\x7d else ".toList, '\x7b', rfl, by decide⟩

variable {w G} {P : Mark I H T → Prop}

mutual

/-- Code is laid out on its lines and leaves the level as it was. -/
theorem Code.linesFrom_steps (hP : ∀ m, P m → FillsLine (m.text w))
    (hwhen : ∀ t, w.head (G.when t) = "if (" ++ w.test t ++ ") \x7b") (level : Nat) :
    (c : Code I H T) → c.AllMarks G P →
      linesFrom level (c.steps w) = c.layout w G level ∧ levelAfter level (c.steps w) = level
  | .done, _ => ⟨rfl, rfl⟩
  | .run i next, ⟨hi, hn⟩ => by
    obtain ⟨hl, ha⟩ := next.linesFrom_steps hP hwhen level hn
    have ht := textLines_of_fillsLine (w.instruction i) (hP _ hi) level
    simp [Code.steps, Code.layout, Step.lines, Step.level, hl, ha, ht]
  | .block h body next, ⟨hh, hb, hn⟩ => by
    obtain ⟨hlb, hab⟩ := body.linesFrom_steps hP hwhen (level + 1) hb
    obtain ⟨hl, ha⟩ := next.linesFrom_steps hP hwhen level hn
    have ht := textLines_of_fillsLine (w.head h) (hP _ hh) level
    have hc := textLines_of_fillsLine _ fillsLine_closing level
    simp [Code.steps, Code.layout, Step.lines, Step.level, hlb, hab, hl, ha, ht, hc]
  | .choose arms next, ⟨ha, hn⟩ => by
    obtain ⟨hla, haa⟩ := arms.linesFrom_steps hP hwhen level true ha
    obtain ⟨hl, ha⟩ := next.linesFrom_steps hP hwhen level hn
    rw [if_pos rfl] at hla haa
    simp [Code.steps, Code.layout, hla, haa, hl, ha]

theorem Arms.linesFrom_steps (hP : ∀ m, P m → FillsLine (m.text w))
    (hwhen : ∀ t, w.head (G.when t) = "if (" ++ w.test t ++ ") \x7b") (level : Nat)
    (isFirst : Bool) : (arms : Arms I H T) → arms.AllMarks G P isFirst →
      linesFrom (if isFirst then level else level + 1) (arms.steps w isFirst) =
          arms.layout w G level isFirst ∧
        levelAfter (if isFirst then level else level + 1) (arms.steps w isFirst) = level
  | .otherwise body, ⟨hf, hb⟩ => by
    obtain ⟨hlb, hab⟩ := body.linesFrom_steps hP hwhen (level + 1) hb
    have ho := textLines_of_fillsLine _ fillsLine_otherwise level
    have hc := textLines_of_fillsLine _ fillsLine_closing level
    subst hf
    simp [Arms.steps, Arms.layout, Step.lines, Step.level, hlb, hab, ho, hc]
  | .arm test body rest, ⟨ht, hb, hr⟩ => by
    obtain ⟨hlb, hab⟩ := body.linesFrom_steps hP hwhen (level + 1) hb
    obtain ⟨hl, ha⟩ := rest.linesFrom_steps hP hwhen level false hr
    rw [if_neg (by decide)] at hl ha
    cases isFirst with
    | true =>
      have ht := textLines_of_fillsLine (w.head (G.when test)) (hP _ ht) level
      rw [hwhen] at ht
      simp [Arms.steps, Arms.layout, Step.lines, Step.level, hlb, hab, hl, ha, ht, hwhen]
    | false =>
      have ht := textLines_of_fillsLine ("\x7d else if (" ++ w.test test ++ ") \x7b")
        (hP _ ht) level
      simp [Arms.steps, Arms.layout, Step.lines, Step.level, Mark.text, hlb, hab, hl, ha, ht]

end

mutual

theorem Code.AllMarks.imp {Q : Mark I H T → Prop} (hPQ : ∀ m, P m → Q m) :
    {c : Code I H T} → c.AllMarks G P → c.AllMarks G Q
  | .done, _ => trivial
  | .run _ _, ⟨hi, hn⟩ => ⟨hPQ _ hi, hn.imp hPQ⟩
  | .block _ _ _, ⟨hh, hb, hn⟩ => ⟨hPQ _ hh, hb.imp hPQ, hn.imp hPQ⟩
  | .choose _ _, ⟨ha, hn⟩ => ⟨ha.imp hPQ, hn.imp hPQ⟩

theorem Arms.AllMarks.imp {Q : Mark I H T → Prop} (hPQ : ∀ m, P m → Q m) {isFirst : Bool} :
    {arms : Arms I H T} → arms.AllMarks G P isFirst → arms.AllMarks G Q isFirst
  | .otherwise _, ⟨hf, hb⟩ => ⟨hf, hb.imp hPQ⟩
  | .arm _ _ _, ⟨ht, hb, hr⟩ => ⟨hPQ _ ht, hb.imp hPQ, hr.imp hPQ⟩

end

theorem Code.allMarks_runAll {is : List I} {next : Code I H T} (h : ∀ i ∈ is, P (.instruction i))
    (hn : next.AllMarks G P) : (Code.runAll is next).AllMarks G P := by
  induction is with
  | nil => exact hn
  | cons i is ih =>
    exact ⟨h i List.mem_cons_self, ih fun j hj => h j (List.mem_cons_of_mem _ hj)⟩

theorem Arms.allMarks_ofList {arms : List (T × Code I H T)} {otherwise : Code I H T}
    {isFirst : Bool} (hne : isFirst = true → arms ≠ [])
    (h : ∀ a ∈ arms, P (.opening (G.when a.1)) ∧ P (.arm a.1) ∧ a.2.AllMarks G P)
    (ho : otherwise.AllMarks G P) : (Arms.ofList arms otherwise).AllMarks G P isFirst := by
  induction arms generalizing isFirst with
  | nil =>
    cases isFirst with
    | true => exact absurd rfl (hne rfl)
    | false => exact ⟨rfl, ho⟩
  | cons a arms ih =>
    obtain ⟨hfirst, harm, hbody⟩ := h a List.mem_cons_self
    refine ⟨?_, hbody, ih (by simp) fun b hb => h b (List.mem_cons_of_mem _ hb)⟩
    cases isFirst with
    | true => exact hfirst
    | false => exact harm

/-! ## The round trip -/

variable {g : I → I}

/-- A line of code is read as what it says, up to the instruction that stands for its own. -/
def Grammar.Reads (G : Grammar I H T) (w : Writing I H T) (g : I → I) (m : Mark I H T) : Prop :=
  FillsLine (m.text w) ∧ G.mark? (unindent (m.text w).toList) = some (m.map g)

/-- An instruction is read from its line if it ends in a semicolon. -/
theorem Grammar.reads_instruction {i : I} (hn : '\n' ∉ (w.instruction i).toList)
    (hlast : (w.instruction i).toList.getLast? = some ';')
    (hunindent : unindent (w.instruction i).toList = (w.instruction i).toList)
    (hread : G.instruction? (w.instruction i).toList = some (g i)) :
    G.Reads w g (.instruction i) := by
  refine ⟨fillsLine_of_getLast? hn hlast (by decide), ?_⟩
  show G.mark? (unindent (w.instruction i).toList) = _
  rw [hunindent, mark?, if_pos hlast, hread]
  rfl

/-- A head is read from its line if it ends in an opening brace and does not look like one of the
lines that close a block. -/
theorem Grammar.reads_opening {h : H} (hn : '\n' ∉ (w.head h).toList)
    (hlast : (w.head h).toList.getLast? = some '\x7b')
    (hfirst : ∃ c cs, (w.head h).toList = c :: cs ∧ c ≠ ' ' ∧ c ≠ '\x7d')
    (hread : G.head? (w.head h).toList = some h) : G.Reads w g (.opening h) := by
  obtain ⟨c, cs, hs, hspace, hbrace⟩ := hfirst
  refine ⟨fillsLine_of_getLast? hn hlast (by decide), ?_⟩
  show G.mark? (unindent (w.head h).toList) = _
  have hunindent : unindent (w.head h).toList = (w.head h).toList := by
    rw [hs]
    simp [unindent, hspace]
  have hclosing : (w.head h).toList ≠ "\x7d".toList := by
    rw [hs]
    simp [hbrace]
  have hotherwise : (w.head h).toList ≠ "\x7d else \x7b".toList := by
    rw [hs]
    simp [hbrace]
  have harm : (w.head h).toList.dropPrefix? "\x7d else if (".toList = none := by
    rw [hs]
    simp [List.dropPrefix?, hbrace]
  rw [hunindent, mark?, hlast, if_neg (by decide), bracket?, if_neg hclosing, if_neg hotherwise,
    harm]
  simp only [hread]
  rfl

/-- A test is read from the line between two arms. -/
theorem Grammar.reads_arm {t : T} (hn : '\n' ∉ (w.test t).toList)
    (hread : G.test? (w.test t).toList = some t) : G.Reads w g (.arm t) := by
  have hs : ((Mark.arm t : Mark I H T).text w).toList =
      "\x7d else if (".toList ++ ((w.test t).toList ++ ") \x7b".toList) := by
    simp [Mark.text]
  have hlast : ((Mark.arm t : Mark I H T).text w).toList.getLast? = some '\x7b' :=
    getLast?_toList_append _ (by decide)
  have hunindent : unindent ((Mark.arm t : Mark I H T).text w).toList =
      ((Mark.arm t : Mark I H T).text w).toList := by
    rw [hs]
    simp [unindent]
  refine ⟨fillsLine_of_getLast? (by rw [hs]; simp [hn]) hlast (by decide), ?_⟩
  rw [hunindent, mark?, hlast, if_neg (by decide), hs, bracket?, if_neg (by simp),
    if_neg (by simp), List.dropPrefix?_append_of_beq _ (by simp)]
  have hd : ((w.test t).toList ++ ") \x7b".toList).dropSuffix? ") \x7b".toList =
      some (w.test t).toList := List.dropSuffix?_eq_some_iff.2 ⟨_, rfl, by simp⟩
  simp only [hd, Option.bind_some, hread]
  rfl

theorem Grammar.read?_lineAt {text : String} {mark : Mark I H T} {lines : List (List Char)}
    {state : Partial I H T} (hm : G.mark? (unindent text.toList) = some mark)
    (hl : G.read? lines = some state) (level : Nat) :
    G.read? (lineAt level text :: lines) = G.push? mark state := by
  rw [read?, hl, unindent_lineAt, hm]

theorem Grammar.mark?_closing : G.mark? (unindent "\x7d".toList) = some .closing := rfl

theorem Grammar.mark?_otherwise :
    G.mark? (unindent "\x7d else \x7b".toList) = some .otherwise := rfl

/-- The head that a chain starts with takes the arms that have been read. -/
theorem Grammar.push?_when (test : T) (code next : Code I H T) (arms : Arms I H T)
    (frames : List (Frame I H T)) :
    G.push? (.opening (G.when test)) (code, ⟨next, some arms⟩ :: frames) =
      some (.choose (.arm test code arms) next, frames) := by
  simp [push?, G.asTest?_when]

mutual

/-- Code that is laid out is read in front of what follows it. -/
theorem Grammar.read?_layout (level : Nat) {lines : List (List Char)} {code : Code I H T}
    {frames : List (Frame I H T)} (hl : G.read? lines = some (code, frames)) :
    (c : Code I H T) → c.AllMarks G (G.Reads w g) →
      G.read? (c.layout w G level ++ lines) = some ((c.map g).andThen code, frames)
  | .done, _ => hl
  | .run i next, ⟨hi, hn⟩ =>
    Grammar.read?_lineAt hi.2 (Grammar.read?_layout level hl next hn) level
  | .block h body next, ⟨hh, hb, hn⟩ => by
    have hnext := Grammar.read?_layout level hl next hn
    have hclose := Grammar.read?_lineAt Grammar.mark?_closing hnext level
    have hbody := Grammar.read?_layout (level + 1) hclose body hb
    rw [Code.andThen_done] at hbody
    have hhead := Grammar.read?_lineAt hh.2 hbody level
    simp only [Code.layout, List.cons_append, List.append_assoc]
    exact hhead
  | .choose (.otherwise body) next, ⟨ha, _⟩ => by cases ha.1
  | .choose (.arm test body rest) next, ⟨⟨ht, hb, hr⟩, hn⟩ => by
    have hnext := Grammar.read?_layout level hl next hn
    have hrest := Grammar.read?_layout_arms level hnext rest hr
    have hbody := Grammar.read?_layout (level + 1) hrest body hb
    rw [Code.andThen_done] at hbody
    have hhead := Grammar.read?_lineAt ht.2 hbody level
    simp only [Code.layout, Arms.layout, if_true, List.cons_append, List.append_assoc]
    exact hhead.trans (Grammar.push?_when ..)

/-- Arms that follow another one are read as the arms of the block in front of them. -/
theorem Grammar.read?_layout_arms (level : Nat) {lines : List (List Char)} {code : Code I H T}
    {frames : List (Frame I H T)} (hl : G.read? lines = some (code, frames)) :
    (arms : Arms I H T) → arms.AllMarks G (G.Reads w g) false →
      G.read? (arms.layout w G level false ++ lines) =
        some (.done, ⟨code, some (arms.map g)⟩ :: frames)
  | .otherwise body, ⟨_, hb⟩ => by
    have hclose := Grammar.read?_lineAt Grammar.mark?_closing hl level
    have hbody := Grammar.read?_layout (level + 1) hclose body hb
    rw [Code.andThen_done] at hbody
    have ho := Grammar.read?_lineAt Grammar.mark?_otherwise hbody level
    simp only [Arms.layout, List.cons_append, List.append_assoc, List.nil_append]
    exact ho
  | .arm test body rest, ⟨ht, hb, hr⟩ => by
    have hrest := Grammar.read?_layout_arms level hl rest hr
    have hbody := Grammar.read?_layout (level + 1) hrest body hb
    rw [Code.andThen_done] at hbody
    have harm := Grammar.read?_lineAt ht.2 hbody level
    simp only [Arms.layout, List.cons_append, List.append_assoc]
    exact harm

end

/-- Code that is laid out is read back. -/
theorem Grammar.code?_linesFrom {c : Code I H T} (hc : c.AllMarks G (G.Reads w g))
    (hwhen : ∀ t, w.head (G.when t) = "if (" ++ w.test t ++ ") \x7b") (level : Nat) :
    G.code? (linesFrom level (c.steps w)) = some (c.map g) := by
  have hnil : G.read? [] = some (.done, []) := rfl
  have hread := Grammar.read?_layout level hnil c hc
  rw [List.append_nil, Code.andThen_done] at hread
  rw [(c.linesFrom_steps (fun _ h => h.1) hwhen level hc).1, code?, hread]

theorem head?_lineAt_succ (level : Nat) (text : String) :
    (lineAt (level + 1) text).head? = some ' ' := by
  rw [lineAt, Nat.mul_succ, List.replicate_succ]
  rfl

mutual

/-- Inside a block, every line is indented. -/
theorem Code.head?_of_mem_layout {l : List Char} (level : Nat) :
    (c : Code I H T) → l ∈ c.layout w G (level + 1) → l.head? = some ' '
  | .done, h => by cases h
  | .run i next, h => by
    obtain rfl | h := List.mem_cons.1 h
    · exact head?_lineAt_succ ..
    · exact next.head?_of_mem_layout level h
  | .block _ body next, h => by
    simp only [Code.layout, List.cons_append, List.mem_cons, List.mem_append] at h
    obtain rfl | h | rfl | h := h
    · exact head?_lineAt_succ ..
    · exact body.head?_of_mem_layout (level + 1) h
    · exact head?_lineAt_succ ..
    · exact next.head?_of_mem_layout level h
  | .choose arms next, h => by
    obtain h | h := List.mem_append.1 h
    · exact arms.head?_of_mem_layout level true h
    · exact next.head?_of_mem_layout level h

theorem Arms.head?_of_mem_layout {l : List Char} (level : Nat) (isFirst : Bool) :
    (arms : Arms I H T) → l ∈ arms.layout w G (level + 1) isFirst → l.head? = some ' '
  | .otherwise body, h => by
    simp only [Arms.layout, List.cons_append, List.mem_cons, List.mem_append,
      List.not_mem_nil, or_false] at h
    obtain rfl | h | rfl := h
    · exact head?_lineAt_succ ..
    · exact body.head?_of_mem_layout (level + 1) h
    · exact head?_lineAt_succ ..
  | .arm _ body rest, h => by
    simp only [Arms.layout, List.cons_append, List.mem_cons, List.mem_append] at h
    obtain rfl | h | h := h
    · exact head?_lineAt_succ ..
    · exact body.head?_of_mem_layout (level + 1) h
    · exact rest.head?_of_mem_layout level false h

end

end Lines

/-! ## A function in a file -/

/-- The body of a function in a file: the lines between the two lines of its signature and the
first closing brace that is not indented. -/
def functionLines? (signature result : String) (text : String) : Option (List (List Char)) :=
  match (Text.pieces '\n' text.toList).dropWhile (· ≠ signature.toList) with
  | _ :: line :: lines =>
    if line = result.toList ∧ ['\x7d'] ∈ lines then some (lines.takeWhile (· ≠ ['\x7d'])) else none
  | _ => none

theorem dropWhile_append_of_not_mem {α : Type} [DecidableEq α] {a : α} {before after : List α}
    (h : a ∉ before) : (before ++ a :: after).dropWhile (· ≠ a) = a :: after := by
  induction before with
  | nil => simp
  | cons b before ih =>
    rw [List.mem_cons, not_or] at h
    rw [List.cons_append, List.dropWhile_cons_of_pos (by simpa using Ne.symm h.1), ih h.2]

theorem takeWhile_append_of_not_mem {α : Type} [DecidableEq α] {a : α} {before after : List α}
    (h : a ∉ before) : (before ++ a :: after).takeWhile (· ≠ a) = before := by
  induction before with
  | nil => simp
  | cons b before ih =>
    rw [List.mem_cons, not_or] at h
    rw [List.cons_append, List.takeWhile_cons_of_pos (by simpa using Ne.symm h.1), ih h.2]

/-- The steps of a function. -/
def function (signature result : String) (body : List Step) : List Step :=
  [.line signature, .opening result] ++ body ++ [.closing "\x7d"]

section Function

variable {signature result : String} {body : List Step}

/-- The lines of a function start with its signature and end with its closing brace. -/
theorem lines_function (hsignature : FillsLine signature) (hresult : FillsLine result)
    (hinside : levelAfter 1 body = 1) :
    lines (function signature result body) =
        signature.toList :: result.toList :: (linesFrom 1 body ++ [['\x7d']]) ∧
      levelAfter 0 (function signature result body) = 0 := by
  have hs := textLines_of_fillsLine signature hsignature 0
  have hr := textLines_of_fillsLine result hresult 0
  have hc := textLines_of_fillsLine "\x7d" fillsLine_closing 0
  simp [function, lines, Step.lines, Step.level, hs, hr, hc, hinside, lineAt]

/-- The body of a function is found in a file in which its signature does not occur before. -/
theorem functionLines?_render {before after : List Step} (hsignature : FillsLine signature)
    (hresult : FillsLine result) (hbefore : Lacks signature.toList before)
    (hbody : ∀ l ∈ linesFrom 1 body, l.head? = some ' ') (hinside : levelAfter 1 body = 1) :
    functionLines? signature result
        (render (before ++ function signature result body ++ after)) =
      some (linesFrom 1 body) := by
  obtain ⟨hfunction, hlevel⟩ := lines_function hsignature hresult hinside
  have hlines : lines (before ++ function signature result body ++ after) =
      lines before ++ signature.toList :: result.toList :: (linesFrom 1 body ++ ['\x7d'] ::
        linesFrom 0 after) := by
    rw [lines] at hfunction
    rw [lines, linesFrom_append, linesFrom_append, levelAfter_append, hbefore.level, hlevel,
      hfunction]
    simp [lines]
  have hclosed : ['\x7d'] ∉ linesFrom 1 body := fun hm => by simpa using hbody _ hm
  rw [functionLines?, pieces_render (by rw [hlines]; simp), hlines, List.append_assoc,
    List.cons_append, dropWhile_append_of_not_mem hbefore.line]
  simp only [List.cons_append, List.append_assoc]
  rw [if_pos ⟨trivial, by simp⟩, takeWhile_append_of_not_mem hclosed]

/-- A line that is not indented is one of the other lines of a function only if it is the first one
or closes the function. -/
theorem lacks_function (hsignature : FillsLine signature) (hresult : FillsLine result)
    (hspace : result.toList.head? = some ' ') (hbody : ∀ l ∈ linesFrom 1 body, l.head? = some ' ')
    (hinside : levelAfter 1 body = 1) {line : List Char} (hne : line ≠ signature.toList)
    (hindent : line.head? ≠ some ' ') (hclosing : line ≠ ['\x7d']) :
    Lacks line (function signature result body) := by
  obtain ⟨hlines, hlevel⟩ := lines_function hsignature hresult hinside
  refine ⟨hlevel, ?_⟩
  rw [hlines]
  simp only [List.mem_cons, List.mem_append, List.not_mem_nil, or_false, not_or]
  exact ⟨hne, fun he => hindent (he ▸ hspace), fun hm => hindent (hbody line hm), hclosing⟩

end Function

end CommandSchema.Generated
