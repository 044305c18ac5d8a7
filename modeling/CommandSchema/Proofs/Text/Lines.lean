import CommandSchema.Proofs.Text.Words
import Mathlib.Data.List.Infix

/-!
# Lines by their introductions

Generated code introduces what it declares with fixed words at the start of a line.

* `after?`: what follows an introduction on a line.
* `linesAfter`, `innerLinesAfter`: what follows an introduction on the lines of a text, and on its
  lines without their indentation.
* `namesAfter`: the names that follow an introduction.
* `linesBetween`: the lines between two others.
-/

namespace CommandSchema.Text

/-- What follows the first of several introductions that a line starts with. -/
def after? (introductions : List String) (line : List Char) : Option String :=
  introductions.findSome? fun i => (line.dropPrefix? i.toList).map .ofList

/-- The line without the spaces at its start. -/
def dropIndent (line : List Char) : List Char := line.dropWhile (· == ' ')

/-- What follows one of several introductions on the lines of a text. -/
def linesAfter (introductions : List String) (text : String) : List String :=
  (pieces '\n' text.toList).filterMap (after? introductions)

/-- What follows one of several introductions on the lines of a text, however they are indented. -/
def innerLinesAfter (introductions : List String) (text : String) : List String :=
  (pieces '\n' text.toList).filterMap fun l => after? introductions (dropIndent l)

/-- The name that a text starts with. -/
def leadingName (text : String) : String := (word text.toList).1

/-- The names that follow one of several introductions on the lines of a text. -/
def namesAfter (introductions : List String) (text : String) : List String :=
  (linesAfter introductions text).map leadingName

/-- The lines between the first line of one form and the next one of another, without their
indentation. -/
def linesBetween (opening closing text : String) : List String :=
  ((((pieces '\n' text.toList).dropWhile (· ≠ opening.toList)).drop 1).takeWhile
    (· ≠ closing.toList)).map fun l => .ofList (dropIndent l)

/-! ## Lines that start with an introduction -/

variable {introduction : String} {introductions : List String}

theorem dropPrefix?_eq_none {p line : List Char} (h : ¬ p <+: line) :
    line.dropPrefix? p = none := by
  cases hd : line.dropPrefix? p with
  | none => rfl
  | some rest =>
    obtain ⟨p', rfl, hp⟩ := List.dropPrefix?_eq_some_iff.1 hd
    obtain rfl : p' = p := by simpa using hp
    exact absurd (List.prefix_append p' rest) h

theorem after?_append (rest : String) :
    after? (introduction :: introductions) (introduction ++ rest).toList = some rest := by
  rw [after?, List.findSome?_cons, String.toList_append, List.dropPrefix?_append_of_beq _ BEq.rfl,
    Option.map_some, String.ofList_toList]

/-- An introduction that a line does not start with is passed over. -/
theorem after?_cons {line : List Char} (h : ¬ introduction.toList <+: line) :
    after? (introduction :: introductions) line = after? introductions line := by
  rw [after?, List.findSome?_cons, dropPrefix?_eq_none h]
  rfl

theorem after?_eq_none {line : List Char} (h : ∀ i ∈ introductions, ¬ i.toList <+: line) :
    after? introductions line = none :=
  List.findSome?_eq_none_iff.2 fun i hi => by
    rw [dropPrefix?_eq_none (h i hi)]
    rfl

/-- Two texts that differ where both have a character. -/
def Clash (a b : List Char) : Prop := ¬ a <+: b ∧ ¬ b <+: a

instance (a b : List Char) : Decidable (Clash a b) := inferInstanceAs (Decidable (_ ∧ _))

theorem Clash.not_starts {a b : List Char} (h : Clash a b) (rest : List Char) :
    ¬ a <+: b ++ rest := fun ha =>
  (List.prefix_or_prefix_of_prefix ha (List.prefix_append b rest)).elim h.1 h.2

/-- A line that starts otherwise than every introduction. -/
theorem after?_append_eq_none {start : List Char}
    (h : ∀ i ∈ introductions, Clash i.toList start) (rest : List Char) :
    after? introductions (start ++ rest) = none :=
  after?_eq_none fun i hi => (h i hi).not_starts rest

/-- A line without a character that every introduction has. -/
theorem after?_of_not_mem {c : Char} {line : List Char} (h : c ∉ line)
    (hc : ∀ i ∈ introductions, c ∈ i.toList) : after? introductions line = none :=
  after?_eq_none fun i hi hp => h (hp.subset (hc i hi))

/-- A name ends where something follows that is not part of a name. -/
theorem leadingName_append {name rest : String} (h : IsName name)
    (hrest : rest.toList.head?.any (!isIdentifierRest ·) = true) :
    leadingName (name ++ rest) = name := by
  cases hs : rest.toList with
  | nil => simp [hs] at hrest
  | cons c cs =>
    have hc : isIdentifierRest c = false := by simpa [hs] using hrest
    rw [leadingName, String.toList_append, hs, word_append h hc]

/-! ## Indentation -/

theorem dropIndent_replicate (n : Nat) (line : List Char) :
    dropIndent (List.replicate n ' ' ++ line) = dropIndent line :=
  List.dropWhile_append_of_pos fun c hc => by simp [List.eq_of_mem_replicate hc]

theorem dropIndent_cons {c : Char} (h : c ≠ ' ') (cs : List Char) :
    dropIndent (c :: cs) = c :: cs :=
  List.dropWhile_cons_of_neg (by simpa using h)

theorem exists_cons_of_head {cs : List Char} (h : cs.head?.any (· ≠ ' ') = true) :
    ∃ c rest, cs = c :: rest ∧ c ≠ ' ' := by
  cases cs with
  | nil => cases h
  | cons c rest => exact ⟨c, rest, rfl, by simpa using h⟩

theorem dropIndent_append {start : List Char} (h : start.head?.any (· ≠ ' ') = true)
    (rest : List Char) : dropIndent (start ++ rest) = start ++ rest := by
  obtain ⟨c, cs, rfl, hc⟩ := exists_cons_of_head h
  exact dropIndent_cons hc _

/-- A line that starts otherwise than every introduction, and is not indented. -/
theorem after?_dropIndent_eq_none {start : List Char}
    (hstart : start.head?.any (· ≠ ' ') = true)
    (h : ∀ i ∈ introductions, Clash i.toList start) (rest : List Char) :
    after? introductions (dropIndent (start ++ rest)) = none := by
  rw [dropIndent_append hstart]
  exact after?_append_eq_none h rest

theorem after?_dropIndent_of_not_mem {c : Char} {line : List Char} (h : c ∉ line)
    (hc : ∀ i ∈ introductions, c ∈ i.toList) : after? introductions (dropIndent line) = none :=
  after?_of_not_mem (fun hm => h ((List.dropWhile_sublist _).mem hm)) hc

end CommandSchema.Text
