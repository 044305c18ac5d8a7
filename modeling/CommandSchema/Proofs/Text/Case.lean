import CommandSchema.Proofs.Text.Pieces
import CommandSchema.Text.Case
import CommandSchema.Text.Identifier

/-!
# Names derived from identifiers

The names that are derived from an identifier by changing the case of first letters.

* `isAlphanum_of_mem_pascal`: `pascal` leaves letters and digits alone.
* `head?_pascal`, `head_pascal_not_lower`: it starts with the first of them, and not with a small
  letter.
* `camel_injective`: `camel` tells apart what `pascal` tells apart.
* `isIdentifier_pascal`, `isIdentifier_camel`: what is derived is an identifier exactly if the first
  of them is a letter.
-/

namespace CommandSchema.Text

/-! ## Characters of identifiers -/

/-- What holds of the first 128 characters, one by one, holds of every one of them. -/
theorem forall_ascii {P : Char → Prop} (h : ∀ n < 128, P (.ofNat n)) {c : Char}
    (hc : c.toNat < 128) : P c := by
  simpa [Char.ofNat_toNat] using h c.toNat hc

theorem toNat_lt_of_isAlphanum {c : Char} (h : c.isAlphanum = true) : c.toNat < 128 := by
  have hle : ∀ d : Char, c.val ≤ d.val → c.toNat ≤ d.toNat := fun d h => h
  have hcases : (c.isUpper || c.isLower || c.isDigit) = true := h
  simp only [Bool.or_eq_true] at hcases
  rcases hcases with (hupper | hlower) | hdigit
  · have hz : 'A'.val ≤ c.val ∧ c.val ≤ 'Z'.val := of_decide_eq_true hupper
    exact Nat.lt_of_le_of_lt (hle 'Z' hz.2) (by decide)
  · have hz : (decide ('a'.val ≤ c.val) && decide (c.val ≤ 'z'.val)) = true := hlower
    exact Nat.lt_of_le_of_lt (hle 'z' (of_decide_eq_true (Bool.and_eq_true_iff.1 hz).2)) (by decide)
  · have hz : (decide ('0'.val ≤ c.val) && decide (c.val ≤ '9'.val)) = true := hdigit
    exact Nat.lt_of_le_of_lt (hle '9' (of_decide_eq_true (Bool.and_eq_true_iff.1 hz).2)) (by decide)

theorem isAlphanum_of_isAlpha {c : Char} (h : c.isAlpha = true) : c.isAlphanum = true := by
  simp [Char.isAlphanum, h]

theorem isIdentifierRest_of_isAlphanum {c : Char} (h : c.isAlphanum = true) :
    isIdentifierRest c = true := by
  simp [isIdentifierRest, h]

theorem isAlphanum_of_isIdentifierRest {c : Char} (h : isIdentifierRest c = true) (hc : c ≠ '_') :
    c.isAlphanum = true := by
  simpa [isIdentifierRest, hc] using h

theorem isIdentifierRest_of_mem {s : String} (h : isIdentifier s = true) :
    ∀ c ∈ s.toList, isIdentifierRest c = true := by
  unfold isIdentifier at h
  cases hs : s.toList with
  | nil => simp
  | cons d cs =>
    simp only [hs, Bool.and_eq_true, List.all_eq_true] at h
    intro c hc
    obtain rfl | hc := List.mem_cons.1 hc
    · have hd := h.1
      simp only [isIdentifierStart, Bool.or_eq_true] at hd
      rcases hd with hd | hd
      · exact isIdentifierRest_of_isAlphanum (isAlphanum_of_isAlpha hd)
      · simp [isIdentifierRest, hd]
    · exact h.2 c hc

/-! ## The case of one character -/

theorem upper_of_isAlphanum {c : Char} (h : c.isAlphanum = true) : upper c = [c.toUpper] :=
  if_pos (toNat_lt_of_isAlphanum h)

theorem lower_of_isAlphanum {c : Char} (h : c.isAlphanum = true) : lower c = [c.toLower] :=
  if_pos (toNat_lt_of_isAlphanum h)

theorem isAlphanum_toUpper {c : Char} (h : c.isAlphanum = true) :
    c.toUpper.isAlphanum = true ∧ c.toUpper.isLower = false :=
  forall_ascii (P := fun c => c.isAlphanum = true →
    c.toUpper.isAlphanum = true ∧ c.toUpper.isLower = false)
    (by decide) (toNat_lt_of_isAlphanum h) h

theorem isAlphanum_toLower {c : Char} (h : c.isAlphanum = true) : c.toLower.isAlphanum = true :=
  forall_ascii (P := fun c => c.isAlphanum = true → c.toLower.isAlphanum = true)
    (by decide) (toNat_lt_of_isAlphanum h) h

/-- A letter stays a letter and a digit a digit in either case. -/
theorem isAlpha_toUpper_toLower {c : Char} (h : c.isAlphanum = true) :
    c.toUpper.isAlpha = c.isAlpha ∧ c.toUpper.toLower.isAlpha = c.isAlpha :=
  forall_ascii (P := fun c => c.isAlphanum = true →
    c.toUpper.isAlpha = c.isAlpha ∧ c.toUpper.toLower.isAlpha = c.isAlpha)
    (by decide) (toNat_lt_of_isAlphanum h) h

/-- A character that is no small letter is found again from its small form. -/
theorem toUpper_toLower {c : Char} (h : c.isAlphanum = true) (hl : c.isLower = false) :
    c.toLower.toUpper = c :=
  forall_ascii (P := fun c => c.isAlphanum = true → c.isLower = false → c.toLower.toUpper = c)
    (by decide) (toNat_lt_of_isAlphanum h) h hl

/-! ## Names -/

theorem isAlphanum_of_mem_mapFirst {f : Char → List Char}
    (hf : ∀ c, c.isAlphanum = true → ∀ d ∈ f c, d.isAlphanum = true) {cs : List Char}
    (h : ∀ c ∈ cs, c.isAlphanum = true) : ∀ c ∈ mapFirst f cs, c.isAlphanum = true := by
  cases cs with
  | nil => simp [mapFirst]
  | cons d cs =>
    intro c hc
    obtain hc | hc := List.mem_append.1 hc
    · exact hf d (h d List.mem_cons_self) c hc
    · exact h c (List.mem_cons_of_mem _ hc)

theorem isAlphanum_of_mem_upper {c : Char} (h : c.isAlphanum = true) :
    ∀ d ∈ upper c, d.isAlphanum = true := by
  intro d hd
  rw [upper_of_isAlphanum h, List.mem_singleton] at hd
  rw [hd]
  exact (isAlphanum_toUpper h).1

theorem isAlphanum_of_mem_lower {c : Char} (h : c.isAlphanum = true) :
    ∀ d ∈ lower c, d.isAlphanum = true := by
  intro d hd
  rw [lower_of_isAlphanum h, List.mem_singleton] at hd
  rw [hd]
  exact isAlphanum_toLower h

/-- The words of an identifier hold letters and digits alone. -/
theorem isAlphanum_of_mem_word {s : String} (h : isIdentifier s = true) {w : List Char}
    (hw : w ∈ pieces '_' s.toList) : ∀ c ∈ w, c.isAlphanum = true := by
  intro c hc
  obtain ⟨hmem, hne⟩ := mem_pieces hw c hc
  exact isAlphanum_of_isIdentifierRest (isIdentifierRest_of_mem h c hmem) hne

theorem isAlphanum_of_mem_pascal {s : String} (h : isIdentifier s = true) :
    ∀ c ∈ (pascal s).toList, c.isAlphanum = true := by
  intro c hc
  rw [pascal, String.toList_ofList, List.mem_flatMap] at hc
  obtain ⟨w, hw, hc⟩ := hc
  exact isAlphanum_of_mem_mapFirst (fun _ => isAlphanum_of_mem_upper)
    (isAlphanum_of_mem_word h hw) c hc

/-- The words of a text together start with its first character that is no underscore. -/
theorem head?_flatMap_pieces {cs : List Char} (h : ∀ c ∈ cs, isIdentifierRest c = true) :
    ((pieces '_' cs).flatMap (mapFirst upper)).head? =
      (cs.find? (· != '_')).map Char.toUpper := by
  induction cs with
  | nil => rfl
  | cons c cs ih =>
    have ih := ih fun d hd => h d (List.mem_cons_of_mem _ hd)
    by_cases hc : c = '_'
    · subst hc
      rw [pieces_cons_self, List.find?_cons_of_neg (by decide)]
      exact ih
    · obtain ⟨p, ps, -, hp⟩ := pieces_cons_of_ne hc cs
      have ha : c.isAlphanum = true :=
        isAlphanum_of_isIdentifierRest (h c List.mem_cons_self) hc
      rw [hp, List.find?_cons_of_pos (by simpa using hc), List.flatMap_cons, mapFirst,
        upper_of_isAlphanum ha]
      rfl

/-- `pascal` starts with the first letter or digit of an identifier, in upper case. -/
theorem head?_pascal {s : String} (h : isIdentifier s = true) :
    (pascal s).toList.head? = (s.toList.find? (· != '_')).map Char.toUpper := by
  rw [pascal, String.toList_ofList]
  exact head?_flatMap_pieces (isIdentifierRest_of_mem h)

theorem isAlphanum_of_find? {s : String} (h : isIdentifier s = true) {c : Char}
    (hc : s.toList.find? (· != '_') = some c) : c.isAlphanum = true :=
  isAlphanum_of_isIdentifierRest (isIdentifierRest_of_mem h c (List.mem_of_find?_eq_some hc))
    (by simpa using List.find?_some hc)

theorem head_pascal_not_lower {s : String} (h : isIdentifier s = true) {c : Char} {cs : List Char}
    (hc : (pascal s).toList = c :: cs) : c.isLower = false := by
  have hhead := head?_pascal h
  rw [hc, List.head?_cons] at hhead
  obtain ⟨d, hd, rfl⟩ := Option.map_eq_some_iff.1 hhead.symm
  exact (isAlphanum_toUpper (isAlphanum_of_find? h hd)).2

theorem toList_camel (s : String) : (camel s).toList = mapFirst lower (pascal s).toList := by
  rw [camel, String.toList_ofList]

/-- Identifiers with one name in `camel` have one name in `pascal`. -/
theorem camel_injective {s t : String} (hs : isIdentifier s = true) (ht : isIdentifier t = true)
    (h : camel s = camel t) : pascal s = pascal t := by
  have hl : mapFirst lower (pascal s).toList = mapFirst lower (pascal t).toList := by
    rw [← toList_camel, ← toList_camel, h]
  have hsa := isAlphanum_of_mem_pascal hs
  have hta := isAlphanum_of_mem_pascal ht
  rw [← String.toList_inj]
  cases hp : (pascal s).toList with
  | nil =>
    cases hq : (pascal t).toList with
    | nil => rfl
    | cons d ds =>
      rw [hp, hq, mapFirst, mapFirst, lower_of_isAlphanum (hta d (by simp [hq]))] at hl
      simp at hl
  | cons c cs =>
    have hca := hsa c (by simp [hp])
    cases hq : (pascal t).toList with
    | nil =>
      rw [hp, hq, mapFirst, mapFirst, lower_of_isAlphanum hca] at hl
      simp at hl
    | cons d ds =>
      have hda := hta d (by simp [hq])
      rw [hp, hq, mapFirst, mapFirst, lower_of_isAlphanum hca, lower_of_isAlphanum hda] at hl
      simp only [List.cons_append, List.nil_append, List.cons.injEq] at hl
      obtain ⟨hcd, rfl⟩ := hl
      rw [← toUpper_toLower hca (head_pascal_not_lower hs hp), hcd,
        toUpper_toLower hda (head_pascal_not_lower ht hq)]

/-! ## Names that are identifiers -/

/-- The first character that is no underscore is a letter. -/
def startsLettered (s : String) : Bool := (s.toList.find? (· != '_')).any Char.isAlpha

/-- A text of letters and digits is an identifier if it starts with a letter. -/
theorem isIdentifier_of_isAlphanum {s : String} (h : ∀ c ∈ s.toList, c.isAlphanum = true) :
    isIdentifier s = s.toList.head?.any Char.isAlpha := by
  unfold isIdentifier
  cases hs : s.toList with
  | nil => rfl
  | cons c cs =>
    rw [hs] at h
    have hne : (c == '_') = false := by
      rw [beq_eq_false_iff_ne]
      rintro rfl
      exact absurd (h _ List.mem_cons_self) (by decide)
    have hrest : cs.all isIdentifierRest = true :=
      List.all_eq_true.2 fun d hd =>
        isIdentifierRest_of_isAlphanum (h d (List.mem_cons_of_mem _ hd))
    simp [isIdentifierStart, hne, hrest]

/-- An identifier stays one in `pascal` exactly if it has a letter before its first digit. -/
theorem isIdentifier_pascal {s : String} (h : isIdentifier s = true) :
    isIdentifier (pascal s) = startsLettered s := by
  rw [isIdentifier_of_isAlphanum (isAlphanum_of_mem_pascal h), head?_pascal h, startsLettered]
  cases hc : s.toList.find? (· != '_') with
  | none => rfl
  | some c => exact (isAlpha_toUpper_toLower (isAlphanum_of_find? h hc)).1

theorem isAlphanum_of_mem_camel {s : String} (h : isIdentifier s = true) :
    ∀ c ∈ (camel s).toList, c.isAlphanum = true := by
  rw [toList_camel]
  exact isAlphanum_of_mem_mapFirst (fun _ => isAlphanum_of_mem_lower) (isAlphanum_of_mem_pascal h)

theorem head?_camel {s : String} (h : isIdentifier s = true) :
    (camel s).toList.head? = (pascal s).toList.head?.map Char.toLower := by
  rw [toList_camel]
  cases hp : (pascal s).toList with
  | nil => rfl
  | cons c cs =>
    have hc : c.isAlphanum = true := isAlphanum_of_mem_pascal h c (by simp [hp])
    rw [mapFirst, lower_of_isAlphanum hc]
    rfl

/-- And so it does in `camel`. -/
theorem isIdentifier_camel {s : String} (h : isIdentifier s = true) :
    isIdentifier (camel s) = startsLettered s := by
  rw [isIdentifier_of_isAlphanum (isAlphanum_of_mem_camel h), head?_camel h, head?_pascal h,
    startsLettered]
  cases hc : s.toList.find? (· != '_') with
  | none => rfl
  | some c => exact (isAlpha_toUpper_toLower (isAlphanum_of_find? h hc)).2

end CommandSchema.Text
