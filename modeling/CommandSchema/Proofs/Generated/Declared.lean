import CommandSchema.Proofs.Generated.Captured

/-!
# The declaration of a member read back

The declaration of a member in the header tells the name, the type and the initializer of its field,
whatever the initializer holds.

* `Field.cppType_eq_iff`: what a declared type tells.
* `Field.declaration_eq_iff`: what a declaration tells.
* `Field.namedRest`, `Field.ShownBy`: how the kind of a member can be seen from a text.
* `Field.declaration_shows`: the declaration of a field that can be specified shows it.
-/

namespace CommandSchema.Field

open Generated Text

variable {f g : Field}

/-! ## Types -/

/-- The type in a declaration has no brackets but those that it is wrapped in. -/
theorem bracket_not_mem_type (h : f.IsWritten) : '<' ∉ f.type.cppType.toList := by
  by_cases ht : f.type = .string
  · rw [ht]
    decide
  · rw [cppType_of_ne ht]
    exact (isName_typeName h).not_mem (by decide)

/-- A type is known from its C++ name: the one of texts is no identifier. -/
theorem type_eq_of_cppType (hf : f.IsWritten) (hg : g.IsWritten)
    (h : f.type.cppType = g.type.cppType) : f.type = g.type := by
  have hcolon : ':' ∈ FieldType.string.cppType.toList := by decide
  have hname : ∀ {f : Field}, f.IsWritten → f.type ≠ .string → ':' ∉ f.type.cppType.toList := by
    intro f hf ht
    rw [cppType_of_ne ht]
    exact (isName_typeName hf).not_mem (by decide)
  by_cases hft : f.type = .string <;> by_cases hgt : g.type = .string
  · rw [hft, hgt]
  · rw [hft] at h
    exact absurd (h ▸ hcolon) (hname hg hgt)
  · rw [hgt] at h
    exact absurd (h ▸ hcolon) (hname hf hft)
  · rw [cppType_of_ne hft, cppType_of_ne hgt] at h
    rw [← hf.type, ← hg.type, h]

/-- What the type of a member is wrapped in. -/
def wrapper (f : Field) : String :=
  if f.isArray then "Vector" else if f.isOptional then "Optional" else ""

theorem cppType_eq (f : Field) : f.cppType =
    if f.wrapper = "" then f.type.cppType else f.wrapper ++ "<" ++ f.type.cppType ++ ">" := by
  unfold cppType wrapper
  cases f.isArray <;> cases f.isOptional <;> rfl

theorem bracket_not_mem_wrapper (f : Field) : '<' ∉ f.wrapper.toList := by
  unfold wrapper
  split_ifs <;> decide

/-- A declared type tells what it is wrapped in: nothing if it has no bracket, and otherwise what
stands before the bracket. -/
theorem wrapper_eq_of_cppType (hf : f.IsWritten) (hg : g.IsWritten) (h : f.cppType = g.cppType) :
    f.wrapper = g.wrapper := by
  have hread : ∀ {f : Field}, f.IsWritten →
      (if '<' ∈ f.cppType.toList then f.cppType.toList.takeWhile (· ≠ '<') else []) =
        f.wrapper.toList := by
    intro f hf
    have htype := bracket_not_mem_type hf
    rw [cppType_eq]
    by_cases hw : f.wrapper = ""
    · rw [if_pos hw, if_neg htype, hw]
      rfl
    · have htext : (f.wrapper ++ "<" ++ f.type.cppType ++ ">").toList =
          f.wrapper.toList ++ '<' :: (f.type.cppType ++ ">").toList := by simp
      rw [if_neg hw, htext, if_pos (by simp),
        takeWhile_append_of_not_mem (bracket_not_mem_wrapper f)]
  rw [← String.toList_inj, ← hread hf, ← hread hg, h]

/-- A declared type tells the type of a field, whether it is an array and, if it is none, whether it
is optional. -/
theorem cppType_eq_iff (hf : f.IsWritten) (hg : g.IsWritten) : f.cppType = g.cppType ↔
    f.type = g.type ∧ f.isArray = g.isArray ∧
      (f.isArray = false → f.isOptional = g.isOptional) := by
  constructor
  · intro h
    have hwrapper := wrapper_eq_of_cppType hf hg h
    have hwraps : f.isArray = g.isArray ∧ (f.isArray = false → f.isOptional = g.isOptional) := by
      unfold wrapper at hwrapper
      revert hwrapper
      cases f.isArray <;> cases g.isArray <;> cases f.isOptional <;> cases g.isOptional <;> decide
    refine ⟨type_eq_of_cppType hf hg ?_, hwraps⟩
    rw [cppType_eq, cppType_eq, hwrapper] at h
    split at h
    · exact h
    · exact (String.append_right_inj _).1 ((String.append_left_inj _).1 h)
  · rintro ⟨htype, harray, hoptional⟩
    unfold cppType
    rw [htype, harray]
    split
    · rfl
    · next hg => rw [hoptional (by simpa [harray] using hg)]

/-! ## Declarations -/

/-- What follows the name in the declaration of a member. -/
def initialText : Option String → String
  | some expression => " = " ++ expression ++ ";"
  | none => ";"

theorem declaration_eq_initialText (f : Field) :
    f.declaration = f.cppType ++ " " ++ (f.name ++ initialText f.initial) := by
  unfold declaration
  cases f.initial with
  | none => simp only [initialText, String.append_assoc]
  | some expression => simp only [initialText, String.append_assoc]

theorem toList_declaration (f : Field) : f.declaration.toList =
    f.cppType.toList ++ ' ' :: (f.name ++ initialText f.initial).toList := by
  simp [declaration_eq_initialText]

theorem initialText_injective : Function.Injective initialText := by
  have hhead : ∀ e, initialText (some e) ≠ initialText none := by
    intro e he
    have htext := congrArg (fun text : String => text.toList.head?) he
    simp [initialText] at htext
  intro a b h
  cases a with
  | none =>
    cases b with
    | none => rfl
    | some e => exact absurd h.symm (hhead e)
  | some e =>
    cases b with
    | none => exact absurd h (hhead e)
    | some e' =>
      exact congrArg some ((String.append_right_inj _).1 ((String.append_left_inj _).1 h))

/-- A declaration tells a field but for its flag and, if it is an array, whether it is optional. -/
theorem declaration_eq_iff (hf : f.IsWritten) (hg : g.IsWritten) :
    f.declaration = g.declaration ↔
      f.name = g.name ∧ f.type = g.type ∧ f.isArray = g.isArray ∧ f.initial = g.initial ∧
        (f.isArray = false → f.isOptional = g.isOptional) := by
  constructor
  · intro h
    have hcpp : f.cppType = g.cppType := by
      rw [← memberType_declaration hf, ← memberType_declaration hg, h]
    obtain ⟨htype, harray, hoptional⟩ := (cppType_eq_iff hf hg).1 hcpp
    rw [declaration_eq_initialText, declaration_eq_initialText, hcpp, String.append_right_inj] at h
    have hends : ∀ o : Option String,
        (initialText o).toList.head?.any (!isIdentifierRest ·) = true := by
      rintro (_ | e)
      · decide
      · simp [initialText, isIdentifierRest]
    have hname : f.name = g.name := by
      rw [← leadingName_append hf.isName_name (hends f.initial), h,
        leadingName_append hg.isName_name (hends g.initial)]
    rw [hname, String.append_right_inj] at h
    exact ⟨hname, htype, harray, initialText_injective h, hoptional⟩
  · rintro ⟨hname, htype, harray, hinitial, hoptional⟩
    rw [declaration_eq_initialText, declaration_eq_initialText, hname, hinitial,
      (cppType_eq_iff hf hg).2 ⟨htype, harray, hoptional⟩]

/-! ## What a declaration shows -/

/-- The parts of the field are those that a specification can have: the grammar has them, and no
foreign type hides behind the name of a built-in one. -/
structure IsSpecified (f : Field) : Prop where
  parts : f.parts.IsValid
  foreign : ∀ n, f.type = .foreign n → n ∉ FieldType.builtinNames

/-- The name in a declaration, which follows the space after the type, and what follows it. -/
def namedRest (declaration : String) : String × List Char :=
  word ((declaration.toList.dropWhile (· ≠ ' ')).drop 1)

/-- A text shows what kind of member a field is: its name, what its type is wrapped in and whether
it has an initializer. -/
structure ShownBy (f : Field) (text : String) : Prop where
  isArray : "Vector<".toList <+: text.toList ↔ f.isArray = true
  isOptional : "Optional<".toList <+: text.toList ↔ f.isArray = false ∧ f.isOptional = true
  name : (namedRest text).1 = f.name
  initial : " = ".toList <+: (namedRest text).2 ↔ f.initial.isSome = true

/-- Under any flag, a field with such parts is one that can be written. -/
theorem IsSpecified.isWritten (h : f.IsSpecified) {flag : String}
    (hflag : Schema.isFlag flag = true) : IsWritten { f with flag } := by
  rw [← field_parts h.foreign flag]
  exact isWritten_of_isValid hflag h.parts

/-- A declaration starts with a wrapper and its bracket exactly if the type is wrapped in it. -/
theorem starts_declaration_iff (hf : f.IsWritten) {w : String} (hw : IsName w) (hne : w ≠ "") :
    (w ++ "<").toList <+: f.declaration.toList ↔ f.wrapper = w := by
  have hbracket : '<' ∉ w.toList := hw.not_mem (by decide)
  have hspace : ' ' ∉ (w ++ "<").toList := by
    simpa using hw.not_mem (by decide)
  constructor
  · intro h
    rw [toList_declaration] at h
    have htype := prefix_of_prefix_append_cons hspace h
    rw [cppType_eq] at htype
    split at htype
    · exact absurd (htype.subset (by simp)) (bracket_not_mem_type hf)
    · obtain ⟨rest, hrest⟩ := htype
      have hsplit : w.toList ++ '<' :: rest =
          f.wrapper.toList ++ '<' :: (f.type.cppType ++ ">").toList := by
        simpa using hrest
      have hw := (append_cons_inj hbracket (bracket_not_mem_wrapper f) hsplit).1
      exact (String.toList_inj.1 hw).symm
  · rintro rfl
    rw [toList_declaration, cppType_eq, if_neg hne]
    refine ⟨(f.type.cppType ++ ">").toList ++ ' ' :: (f.name ++ initialText f.initial).toList, ?_⟩
    simp

theorem namedRest_declaration (hf : f.IsWritten) :
    namedRest f.declaration = (f.name, (initialText f.initial).toList) := by
  obtain ⟨c, cs, hrest, hc⟩ : ∃ c cs, (initialText f.initial).toList = c :: cs ∧
      isIdentifierRest c = false := by
    cases f.initial with
    | none => exact ⟨';', [], rfl, by decide⟩
    | some e => exact ⟨' ', ("= " ++ e ++ ";").toList, by simp [initialText], by decide⟩
  rw [namedRest, toList_declaration, dropWhile_append_of_not_mem (space_not_mem_cppType hf),
    List.drop_one, List.tail_cons, String.toList_append, hrest, word_append hf.isName_name hc]

theorem starts_initialText_iff (o : Option String) :
    " = ".toList <+: (initialText o).toList ↔ o.isSome = true := by
  cases o with
  | none => decide
  | some e => simp [initialText]

theorem shownBy_declaration (hf : f.IsWritten) : f.ShownBy f.declaration := by
  have hvector := starts_declaration_iff hf (w := "Vector") (by simp [IsName, isIdentifierRest])
    (by decide)
  have hoptional := starts_declaration_iff hf (w := "Optional")
    (by simp [IsName, isIdentifierRest]) (by decide)
  have hrest := namedRest_declaration hf
  refine ⟨hvector.trans ?_, hoptional.trans ?_, by rw [hrest], ?_⟩
  · unfold wrapper
    cases f.isArray <;> cases f.isOptional <;> decide
  · unfold wrapper
    cases f.isArray <;> cases f.isOptional <;> decide
  · rw [hrest]
    exact starts_initialText_iff f.initial

/-- The declaration of a field tells its name, its type, whether it is an array, its initializer
and, if it is no array, whether it is optional. What kind of member it is can be seen from the start
of the text and from what follows the name, whatever the initializer holds. -/
theorem declaration_shows (hf : f.IsSpecified) (hg : g.IsSpecified) :
    (f.declaration = g.declaration ↔
      f.name = g.name ∧ f.type = g.type ∧ f.isArray = g.isArray ∧ f.initial = g.initial ∧
        (f.isArray = false → f.isOptional = g.isOptional)) ∧
      f.ShownBy f.declaration ∧ g.ShownBy g.declaration := by
  have hflag : Schema.isFlag "-" = true := by decide
  -- A declaration does not look at the flag, so any one does.
  have hshown : ∀ h : Field, h.IsSpecified → h.ShownBy h.declaration := by
    intro h hh
    obtain ⟨hisArray, hisOptional, hname, hinitial⟩ := shownBy_declaration (hh.isWritten hflag)
    exact ⟨hisArray, hisOptional, hname, hinitial⟩
  have hiff := declaration_eq_iff (hf.isWritten hflag) (hg.isWritten hflag)
  exact ⟨hiff, hshown f hf, hshown g hg⟩

/-- Types that are named as the wrappers are and an initializer that looks like a declaration do not
mislead. -/
theorem declaration_shows_vector :
    let f : Field := ⟨"-r", "rows", .foreign "Vector", true, false, some "Vector(); a = 1"⟩
    let g : Field := ⟨"-c", "rows", .foreign "Optional", false, true, none⟩
    f.IsSpecified ∧ g.IsSpecified ∧
      f.declaration = "Optional<Vector> rows = Vector(); a = 1;" ∧
      g.declaration = "Vector<Optional> rows;" ∧
      f.declaration ≠ g.declaration ∧ f.ShownBy f.declaration ∧ g.ShownBy g.declaration := by
  intro f g
  have hname : IsWord Char.isAlpha Char.isAlphanum "rows".toList :=
    ⟨'r', "ows".toList, rfl, by decide, by simp⟩
  have hvector : IsWord isIdentifierStart isIdentifierRest "Vector".toList :=
    ⟨'V', "ector".toList, rfl, by decide, by simp [isIdentifierRest]⟩
  have hoptional : IsWord isIdentifierStart isIdentifierRest "Optional".toList :=
    ⟨'O', "ptional".toList, rfl, by decide, by simp [isIdentifierRest]⟩
  have hf : f.IsSpecified := by
    refine ⟨⟨hvector, hname, ?_⟩, ?_⟩
    · rintro e ⟨⟩
      decide
    · rintro n ⟨⟩
      decide
  have hg : g.IsSpecified := by
    refine ⟨⟨hoptional, hname, ?_⟩, ?_⟩
    · rintro e ⟨⟩
    · rintro n ⟨⟩
      decide
  obtain ⟨hiff, hfshown, hgshown⟩ := declaration_shows hf hg
  refine ⟨hf, hg, by decide +kernel, by decide +kernel, fun h => ?_, hfshown, hgshown⟩
  exact absurd (hiff.1 h).2.2.1 (by decide)

end CommandSchema.Field
