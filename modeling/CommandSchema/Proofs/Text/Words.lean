import CommandSchema.Proofs.Text.Case
import CommandSchema.Proofs.Text.Quoted
import CommandSchema.Text.Blank
import Mathlib.Data.List.TakeWhile

/-!
# Words of generated text

What the lines of generated code are cut into.

* `word`: the name that a text starts with.
* `between?`: what stands between two texts.
* `quoted?`: a quoted literal up to its closing quote.
-/

namespace CommandSchema.Text

/-- The name consists of letters, digits and underscores. -/
def IsName (name : String) : Prop := ∀ c ∈ name.toList, isIdentifierRest c = true

/-- A name at the start of a text and what follows it. The name may be empty. -/
def word (cs : List Char) : String × List Char :=
  (.ofList (cs.takeWhile isIdentifierRest), cs.dropWhile isIdentifierRest)

/-- A text that is a name. -/
def name? (cs : List Char) : Option String :=
  if cs.all isIdentifierRest then some (.ofList cs) else none

/-- What stands between two texts. -/
def between? (opening closing : String) (cs : List Char) : Option (List Char) :=
  (cs.dropPrefix? opening.toList).bind (·.dropSuffix? closing.toList)

/-- The text of a quoted literal whose opening quote has been read and that nothing follows. -/
def quoted? (cs : List Char) : Option String :=
  match unquote? cs with
  | some (text, []) => some (.ofList text)
  | _ => none

theorem word_append {name : String} (h : IsName name) {c : Char}
    (hc : isIdentifierRest c = false) (cs : List Char) :
    word (name.toList ++ c :: cs) = (name, c :: cs) := by
  have hn : ¬ isIdentifierRest c = true := by simp [hc]
  rw [word, List.takeWhile_append_of_pos h, List.dropWhile_append_of_pos h,
    List.takeWhile_cons_of_neg hn, List.dropWhile_cons_of_neg hn, List.append_nil,
    String.ofList_toList]

theorem name?_toList {name : String} (h : IsName name) : name? name.toList = some name := by
  rw [name?, if_pos (List.all_eq_true.2 h), String.ofList_toList]

theorem between?_append (opening closing : String) (cs : List Char) :
    between? opening closing (opening.toList ++ cs ++ closing.toList) = some cs := by
  have ho : (opening.toList ++ (cs ++ closing.toList)).dropPrefix? opening.toList =
      some (cs ++ closing.toList) := List.dropPrefix?_append_of_beq _ (by simp)
  have hc : (cs ++ closing.toList).dropSuffix? closing.toList = some cs :=
    List.dropSuffix?_eq_some_iff.2 ⟨_, rfl, by simp⟩
  rw [between?, List.append_assoc, ho]
  exact hc

/-- Nothing stands between texts of which the first one starts with another character. -/
theorem between?_of_ne {opening closing : String} {c d : Char} {cs ds : List Char}
    (ho : opening.toList = c :: cs) (hne : d ≠ c) : between? opening closing (d :: ds) = none := by
  have hd : (d :: ds).dropPrefix? (c :: cs) = none := by
    rw [List.dropPrefix?, if_neg (by simpa using hne)]
  rw [between?, ho, hd]
  rfl

theorem IsName.not_mem {name : String} (h : IsName name) {c : Char}
    (hc : isIdentifierRest c = false) : c ∉ name.toList :=
  fun hm => by simp [h c hm] at hc

/-- A character of a name is no white space. -/
theorem isBlank_of_isIdentifierRest {c : Char} (h : isIdentifierRest c = true) :
    isBlank c = false := by
  have hall : ∀ n < 128, isIdentifierRest (.ofNat n) = true → isBlank (.ofNat n) = false := by
    decide
  have hlt : c.toNat < 128 := by
    by_cases hc : c = '_'
    · rw [hc]
      decide
    · exact toNat_lt_of_isAlphanum (isAlphanum_of_isIdentifierRest h hc)
  have hn : Char.ofNat c.toNat = c := Char.ofNat_toNat c
  simpa [hn, h] using hall c.toNat hlt

theorem IsName.append {a b : String} (ha : IsName a) (hb : IsName b) : IsName (a ++ b) := by
  intro c hc
  rw [String.toList_append, List.mem_append] at hc
  exact hc.elim (ha c) (hb c)

/-- An identifier stays one with any name after it. -/
theorem isIdentifier_append {a b : String} (ha : isIdentifier a = true) (hb : IsName b) :
    isIdentifier (a ++ b) = true := by
  unfold isIdentifier at ha ⊢
  rw [String.toList_append]
  cases hcs : a.toList with
  | nil => simp [hcs] at ha
  | cons c cs =>
    simp only [hcs, Bool.and_eq_true] at ha
    simp only [List.cons_append, List.all_append, Bool.and_eq_true]
    exact ⟨ha.1, ha.2, List.all_eq_true.2 hb⟩

theorem isName_of_isAlphanum {name : String} (h : ∀ c ∈ name.toList, c.isAlphanum = true) :
    IsName name := fun c hc => isIdentifierRest_of_isAlphanum (h c hc)

/-- A name with a start that no fixed name has. -/
theorem append_not_mem_of_start {start : String} {fixed : List String}
    (h : ∀ name ∈ fixed, ¬ start.toList <+: name.toList) (rest : String) :
    start ++ rest ∉ fixed := fun hm =>
  h _ hm ⟨rest.toList, String.toList_append.symm⟩

/-- A name with an end that no fixed name has. -/
theorem append_not_mem_of_end {ending : String} {fixed : List String}
    (h : ∀ name ∈ fixed, ¬ ending.toList <:+ name.toList) (rest : String) :
    rest ++ ending ∉ fixed := fun hm =>
  h _ hm ⟨rest.toList, String.toList_append.symm⟩

theorem quoted?_quoteBody (s : String) : quoted? (quoteBody s.toList ++ ['\x22']) = some s := by
  rw [quoted?, unquote?_quoteBody]
  simp

end CommandSchema.Text
