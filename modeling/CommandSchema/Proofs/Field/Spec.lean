import CommandSchema.Field.Spec
import CommandSchema.Proofs.Text.Case
import Mathlib.Data.List.TakeDrop
import Mathlib.Data.List.TakeWhile

/-!
# The grammar of field specifications

A specification is the text of its parts, and it has no other parts: what a reader makes of it is
what was written.

* `SpecParts`, `SpecParts.IsValid`, `SpecParts.text`: the parts of a specification, those that the
  grammar has, and how they are written.
* `readWord?_eq_some_iff`, `readMark_eq_iff`, `readInitial?_eq_some_iff`: each reader takes what was
  written for its part, and leaves the rest.
* `Field.ofSpec?_eq_some_iff`: the specifications of a field.
* `Field.parse_iff_grammar`: reading and writing are inverse to each other.
-/

namespace CommandSchema

open Text

/-! ## Statement -/

/-- A character of the first class, then characters of the second one. -/
def IsWord (isStart isRest : Char → Bool) (word : List Char) : Prop :=
  ∃ c cs, word = c :: cs ∧ isStart c = true ∧ ∀ d ∈ cs, isRest d = true

/-- The parts of a specification. -/
structure SpecParts where
  typeName : String
  name : String
  isOptional : Bool
  isArray : Bool
  initial : Option String

namespace SpecParts

/-- The parts that the grammar has. -/
structure IsValid (p : SpecParts) : Prop where
  /-- The name of a type is a letter or an underscore, then letters, digits and underscores. -/
  typeName : IsWord isIdentifierStart isIdentifierRest p.typeName.toList
  /-- The name of a member is a letter, then letters and digits. -/
  name : IsWord Char.isAlpha Char.isAlphanum p.name.toList
  /-- An initializer is not empty and stays on its line. -/
  initial : ∀ e, p.initial = some e → e ≠ "" ∧ '\n' ∉ e.toList

/-- The specification that the parts make. -/
def text (p : SpecParts) : String :=
  p.typeName ++ " " ++ p.name ++ (if p.isOptional then "?" else "") ++
    (if p.isArray then "[]" else "") ++
    match p.initial with
    | none => ""
    | some e => " = " ++ e

/-- The field that the parts describe, under a flag. -/
def field (flag : String) (p : SpecParts) : Field :=
  { flag, name := p.name, type := .ofName p.typeName, isOptional := p.isOptional,
    isArray := p.isArray, initial := p.initial }

end SpecParts

/-- The parts of the specification of a field. -/
def Field.parts (f : Field) : SpecParts :=
  ⟨f.type.name, f.name, f.isOptional, f.isArray, f.initial⟩

/-! ## Words

The name of a type and the name of a member are as long as they can be: what follows them does not
continue them. -/

theorem isIdentifier_iff {s : String} :
    isIdentifier s = true ↔ IsWord isIdentifierStart isIdentifierRest s.toList := by
  unfold isIdentifier IsWord
  cases s.toList with
  | nil => simp
  | cons c cs => simp

/-- The longest start of a text in a class, and what follows it. -/
theorem span_eq_iff {isRest : Char → Bool} {cs word rest : List Char} :
    cs.span isRest = (word, rest) ↔
      cs = word ++ rest ∧ (∀ c ∈ word, isRest c = true) ∧ ∀ c ∈ rest.head?, isRest c = false := by
  rw [List.span_eq_takeWhile_dropWhile, Prod.mk.injEq]
  constructor
  · rintro ⟨rfl, rfl⟩
    refine ⟨List.takeWhile_append_dropWhile.symm, fun c hc => List.mem_takeWhile_imp hc, ?_⟩
    intro c hc
    have h := List.head?_dropWhile_not isRest cs
    rwa [Option.mem_def.1 hc] at h
  · rintro ⟨rfl, hword, hrest⟩
    rw [List.takeWhile_append_of_pos hword, List.dropWhile_append_of_pos hword]
    cases rest with
    | nil => simp
    | cons c rest => simp [hrest c (by simp)]

/-- A word and the text after it. -/
def readWord? (isStart isRest : Char → Bool) (cs : List Char) : Option (List Char × List Char) :=
  match cs.span isRest with
  | (c :: word, rest) => if isStart c then some (c :: word, rest) else none
  | ([], _) => none

/-- A word is read if it stands at the start and does not go on. -/
theorem readWord?_eq_some_iff {isStart isRest : Char → Bool}
    (hstart : ∀ c, isStart c = true → isRest c = true) {cs word rest : List Char} :
    readWord? isStart isRest cs = some (word, rest) ↔
      cs = word ++ rest ∧ IsWord isStart isRest word ∧ ∀ c ∈ rest.head?, isRest c = false := by
  constructor
  · intro h
    unfold readWord? at h
    split at h
    · next c word' rest' hspan =>
      split at h
      · next hc =>
        cases h
        obtain ⟨rfl, hword, hrest⟩ := span_eq_iff.1 hspan
        exact ⟨rfl, ⟨c, word', rfl, hc, fun d hd => hword d (List.mem_cons_of_mem _ hd)⟩, hrest⟩
      · cases h
    · cases h
  · rintro ⟨rfl, ⟨c, cs, rfl, hc, hcs⟩, hrest⟩
    have hspan : (c :: cs ++ rest).span isRest = (c :: cs, rest) :=
      span_eq_iff.2 ⟨rfl, List.forall_mem_cons.2 ⟨hstart c hc, hcs⟩, hrest⟩
    simp only [readWord?, hspan, hc, if_true]

namespace Field

theorem readTypeName?_eq_some_iff {cs name rest : List Char} :
    readTypeName? cs = some (name, rest) ↔
      cs = name ++ rest ∧ IsWord isIdentifierStart isIdentifierRest name ∧
        ∀ c ∈ rest.head?, isIdentifierRest c = false := by
  refine readWord?_eq_some_iff fun c hc => ?_
  unfold isIdentifierStart at hc
  unfold isIdentifierRest Char.isAlphanum
  rcases Bool.or_eq_true _ _ ▸ hc with h | h <;> simp [h]

theorem readMemberName?_eq_some_iff {cs name rest : List Char} :
    readMemberName? cs = some (name, rest) ↔
      cs = name ++ rest ∧ IsWord Char.isAlpha Char.isAlphanum name ∧
        ∀ c ∈ rest.head?, c.isAlphanum = false :=
  readWord?_eq_some_iff fun _ => isAlphanum_of_isAlpha

/-! ## Marks -/

/-- A mark, if it stands here. -/
def readMark (mark cs : List Char) : Bool × List Char :=
  if mark.isPrefixOf cs then (true, cs.drop mark.length) else (false, cs)

/-- A mark as it is written. -/
def markText (mark : List Char) (isMarked : Bool) : List Char := if isMarked then mark else []

theorem readMark_eq_iff {mark cs rest : List Char} {isMarked : Bool} :
    readMark mark cs = (isMarked, rest) ↔
      cs = markText mark isMarked ++ rest ∧ (isMarked = false → ¬ mark <+: rest) := by
  unfold readMark markText
  by_cases h : mark <+: cs
  · obtain ⟨tail, rfl⟩ := h
    cases isMarked with
    | true => simp
    | false =>
      refine iff_of_false (by simp) ?_
      rintro ⟨rfl, hrest⟩
      exact hrest rfl ⟨tail, rfl⟩
  · rw [if_neg (by simpa using h)]
    cases isMarked with
    | true =>
      refine iff_of_false (by simp) ?_
      rintro ⟨rfl, -⟩
      exact h ⟨rest, rfl⟩
    | false =>
      constructor
      · rintro ⟨⟩
        exact ⟨rfl, fun _ => h⟩
      · rintro ⟨rfl, -⟩
        rfl

theorem readOptional_eq (cs : List Char) : readOptional cs = readMark ['?'] cs := by
  unfold readOptional readMark
  split
  · rfl
  · next h =>
    rw [if_neg fun hp => ?_]
    obtain ⟨tail, rfl⟩ := List.isPrefixOf_iff_prefix.1 hp
    exact h tail rfl

theorem readArray_eq (cs : List Char) : readArray cs = readMark ['[', ']'] cs := by
  unfold readArray readMark
  split
  · rfl
  · next h =>
    rw [if_neg fun hp => ?_]
    obtain ⟨tail, rfl⟩ := List.isPrefixOf_iff_prefix.1 hp
    exact h tail rfl

/-! ## Initializers -/

/-- An initializer as it is written. -/
def initialChars : Option (List Char) → List Char
  | none => []
  | some e => ' ' :: '=' :: ' ' :: e

theorem readInitial?_initialChars {initial : Option (List Char)}
    (h : ∀ e, initial = some e → e ≠ [] ∧ '\n' ∉ e) :
    readInitial? (initialChars initial) = some initial := by
  cases initial with
  | none => rfl
  | some e =>
    obtain ⟨hne, hline⟩ := h e rfl
    cases e with
    | nil => exact absurd rfl hne
    | cons c cs =>
      show (if (c :: cs).contains '\n' then none else some (some (c :: cs))) = _
      rw [if_neg (by simpa using hline)]

theorem readInitial?_eq_some_iff {cs : List Char} {initial : Option (List Char)} :
    readInitial? cs = some initial ↔
      cs = initialChars initial ∧ ∀ e, initial = some e → e ≠ [] ∧ '\n' ∉ e := by
  constructor
  · intro h
    unfold readInitial? at h
    split at h
    · cases h
      exact ⟨rfl, by simp⟩
    · split at h
      · cases h
      · next hline =>
        cases h
        refine ⟨rfl, ?_⟩
        rintro e ⟨⟩
        exact ⟨by simp, by simpa using hline⟩
    · cases h
  · rintro ⟨rfl, h⟩
    exact readInitial?_initialChars h

/-! ## Specifications -/

/-- The marks and the initializer, which follow the name of a member. -/
def marksText (isOptional isArray : Bool) (initial : Option (List Char)) : List Char :=
  markText ['?'] isOptional ++ (markText ['[', ']'] isArray ++ initialChars initial)

/-- They do not continue the name. -/
theorem head_marksText (isOptional isArray : Bool) (initial : Option (List Char)) :
    ∀ c ∈ (marksText isOptional isArray initial).head?, c.isAlphanum = false := by
  cases isOptional <;> cases isArray <;> cases initial <;>
    simp [marksText, markText, initialChars]

theorem readOptional_marksText (isOptional isArray : Bool) (initial : Option (List Char)) :
    readOptional (marksText isOptional isArray initial) =
      (isOptional, markText ['[', ']'] isArray ++ initialChars initial) := by
  rw [readOptional_eq, readMark_eq_iff]
  refine ⟨rfl, fun _ => ?_⟩
  cases isArray <;> cases initial <;> simp [markText, initialChars]

theorem readArray_markText (isArray : Bool) (initial : Option (List Char)) :
    readArray (markText ['[', ']'] isArray ++ initialChars initial) =
      (isArray, initialChars initial) := by
  rw [readArray_eq, readMark_eq_iff]
  refine ⟨rfl, fun _ => ?_⟩
  cases initial <;> simp [initialChars]

end Field

namespace SpecParts

/-- The characters of a specification. -/
theorem toList_text (p : SpecParts) :
    p.text.toList = p.typeName.toList ++ ' ' :: (p.name.toList ++
      Field.marksText p.isOptional p.isArray (p.initial.map String.toList)) := by
  unfold text Field.marksText
  cases p.isOptional <;> cases p.isArray <;> cases p.initial <;>
    simp [Field.markText, Field.initialChars]

end SpecParts

namespace Field

/-- A specification is read as its parts. -/
theorem ofSpec?_text (flag : String) {p : SpecParts} (hp : p.IsValid) :
    ofSpec? flag p.text = some (p.field flag) := by
  have hspace : isIdentifierRest ' ' = false := by decide
  have htype := readTypeName?_eq_some_iff.2 ⟨p.toList_text, hp.typeName, by simp [hspace]⟩
  have hname := readMemberName?_eq_some_iff.2 ⟨rfl, hp.name, head_marksText p.isOptional p.isArray
    (p.initial.map String.toList)⟩
  have hvalid : ∀ e, p.initial.map String.toList = some e → e ≠ [] ∧ '\n' ∉ e := by
    intro e he
    obtain ⟨e, he', rfl⟩ := Option.map_eq_some_iff.1 he
    exact ⟨by simpa using (hp.initial e he').1, (hp.initial e he').2⟩
  have hinitial := readInitial?_initialChars hvalid
  simp only [ofSpec?, htype, hname, readOptional_marksText, readArray_markText, hinitial,
    Option.map_some, SpecParts.field, String.ofList_toList, Option.map_map]
  cases p.initial <;> simp

/-- Whatever is read consists of parts that the grammar has. -/
theorem exists_parts_of_ofSpec? {flag text : String} {f : Field} (h : ofSpec? flag text = some f) :
    ∃ p : SpecParts, p.IsValid ∧ p.text = text ∧ f = p.field flag := by
  unfold ofSpec? at h
  split at h
  · next type cs htype =>
    split at h
    · next name cs' hname =>
      rcases hoptional : readOptional cs' with ⟨isOptional, cs₁⟩
      rcases harray : readArray cs₁ with ⟨isArray, cs₂⟩
      simp only [hoptional, harray] at h
      obtain ⟨initial, hinitial, rfl⟩ := Option.map_eq_some_iff.1 h
      obtain ⟨htext, htypeWord, -⟩ := readTypeName?_eq_some_iff.1 htype
      obtain ⟨rfl, hnameWord, -⟩ := readMemberName?_eq_some_iff.1 hname
      obtain ⟨rfl, -⟩ := readMark_eq_iff.1 (readOptional_eq cs' ▸ hoptional)
      obtain ⟨rfl, -⟩ := readMark_eq_iff.1 (readArray_eq cs₁ ▸ harray)
      obtain ⟨rfl, hline⟩ := readInitial?_eq_some_iff.1 hinitial
      refine ⟨⟨.ofList type, .ofList name, isOptional, isArray, initial.map String.ofList⟩,
        ⟨by simpa using htypeWord, by simpa using hnameWord, ?_⟩, ?_, rfl⟩
      · intro e he
        obtain ⟨e, rfl, rfl⟩ := Option.map_eq_some_iff.1 he
        exact ⟨by simpa using (hline e rfl).1, by simpa using (hline e rfl).2⟩
      · rw [← String.toList_inj, SpecParts.toList_text, htext]
        cases initial <;> simp [marksText]
    · cases h
  · cases h

/-- The specifications of a field are the texts of parts that describe it. -/
theorem ofSpec?_eq_some_iff {flag text : String} {f : Field} :
    ofSpec? flag text = some f ↔ ∃ p : SpecParts, p.IsValid ∧ p.text = text ∧ f = p.field flag := by
  constructor
  · exact exists_parts_of_ofSpec?
  · rintro ⟨p, hp, rfl, rfl⟩
    exact ofSpec?_text flag hp

theorem parse_eq_ok_iff {command flag text : String} {f : Field} :
    parse command flag text = .ok f ↔
      ∃ p : SpecParts, p.IsValid ∧ p.text = text ∧ f = p.field flag := by
  rw [← ofSpec?_eq_some_iff, parse]
  cases ofSpec? flag text <;> simp

/-- A line that is not read is an error that holds it. -/
theorem parse_eq_error_iff {command flag text : String} {e : SpecError} :
    parse command flag text = .error e ↔
      (¬ ∃ f, parse command flag text = .ok f) ∧ e = ⟨command, flag, text⟩ := by
  rw [parse]
  cases ofSpec? flag text <;> simp [eq_comm]

/-- A line is read exactly if it has the parts that the grammar has. -/
theorem exists_parse_iff {command flag text : String} :
    (∃ f, parse command flag text = .ok f) ↔ ∃ p : SpecParts, p.IsValid ∧ p.text = text := by
  simp only [parse_eq_ok_iff]
  constructor
  · rintro ⟨f, p, hp, htext, -⟩
    exact ⟨p, hp, htext⟩
  · rintro ⟨p, hp, htext⟩
    exact ⟨p.field flag, p, hp, htext, rfl⟩

/-! ## Fields as specifications -/

theorem parts_field (flag : String) (p : SpecParts) : (p.field flag).parts = p := by
  simp [parts, SpecParts.field]

/-- A field is what its parts describe, unless a foreign type hides behind the name of a built-in
one. -/
theorem field_parts {f : Field} (hf : ∀ n, f.type = .foreign n → n ∉ FieldType.builtinNames)
    (flag : String) : f.parts.field flag = { f with flag } := by
  simp [parts, SpecParts.field, FieldType.ofName_name f.type hf]

theorem text_parts (f : Field) : f.parts.text = f.spec := rfl

/-- Exactly the lines of the grammar are read, each in one way. What is read from a line writes that
line, and a field whose parts the grammar has is read from the line that it writes. Any other line
is an error that holds the command, the flag and the line. -/
theorem parse_iff_grammar (command flag text : String) :
    (∀ f, parse command flag text = .ok f ↔
      ∃ p : SpecParts, p.IsValid ∧ p.text = text ∧ f = p.field flag) ∧
    (∀ e, parse command flag text = .error e ↔
      (¬ ∃ p : SpecParts, p.IsValid ∧ p.text = text) ∧ e = ⟨command, flag, text⟩) ∧
    (∀ p q : SpecParts, p.IsValid → q.IsValid → p.text = text → q.text = text → p = q) ∧
    (∀ f, parse command flag text = .ok f → f.flag = flag ∧ f.spec = text) ∧
    ∀ f : Field, f.parts.IsValid → (∀ n, f.type = .foreign n → n ∉ FieldType.builtinNames) →
      parse command flag f.spec = .ok { f with flag } := by
  refine ⟨fun f => parse_eq_ok_iff, fun e => ?_, ?_, ?_, ?_⟩
  · rw [parse_eq_error_iff, exists_parse_iff]
  · rintro p q hp hq rfl hq'
    have h : q.field flag = p.field flag := by
      simpa [hq', ofSpec?_text flag hp] using (ofSpec?_text flag hq).symm
    rw [← parts_field flag p, ← h, parts_field]
  · intro f hf
    obtain ⟨p, -, rfl, rfl⟩ := parse_eq_ok_iff.1 hf
    refine ⟨rfl, ?_⟩
    rw [← text_parts, parts_field]
  · intro f hvalid htype
    exact parse_eq_ok_iff.2 ⟨f.parts, hvalid, text_parts f, (field_parts htype flag).symm⟩

end Field

end CommandSchema
