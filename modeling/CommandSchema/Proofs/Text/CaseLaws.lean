import CommandSchema.Proofs.Text.Case

/-!
# Laws of derived names

How the names that are derived from identifiers relate to each other and to the identifiers.

* `folded`: the letters and digits of a name, whatever their case and the underscores between them.
* `CaseLaws`: what holds of the names that are derived from one name.
* `caseLaws_of_isIdentifier`: these laws, and two identifiers have one name in `pascal` exactly if
  they have one in `camel`.
-/

namespace CommandSchema.Text

/-! ## Statement -/

/-- The characters of a name without its underscores, each in lower case. -/
def folded (s : String) : List Char := (s.toList.filter (· ≠ '_')).map Char.toLower

/-- The names that are derived from a name stay what they are when they are derived again, and have
its characters but for underscores and case. -/
structure CaseLaws (s : String) : Prop where
  underscore_not_mem : '_' ∉ (pascal s).toList
  pascal_pascal : pascal (pascal s) = pascal s
  capitalize_pascal : capitalize (pascal s) = pascal s
  camel_pascal : camel (pascal s) = camel s
  pascal_camel : pascal (camel s) = pascal s
  folded_pascal : folded (pascal s) = folded s
  folded_camel : folded (camel s) = folded s

/-! ## One character -/

/-- What is no small letter is its own upper case. -/
theorem toUpper_of_not_isLower {c : Char} (h : c.isAlphanum = true) (hl : c.isLower = false) :
    c.toUpper = c :=
  forall_ascii (P := fun c => c.isAlphanum = true → c.isLower = false → c.toUpper = c)
    (by decide) (toNat_lt_of_isAlphanum h) h hl

/-- Either case of a character has the same lower case. -/
theorem toLower_toUpper_and_toLower {c : Char} (h : c.isAlphanum = true) :
    c.toUpper.toLower = c.toLower ∧ c.toLower.toLower = c.toLower :=
  forall_ascii (P := fun c => c.isAlphanum = true →
    c.toUpper.toLower = c.toLower ∧ c.toLower.toLower = c.toLower)
    (by decide) (toNat_lt_of_isAlphanum h) h

/-! ## Texts of letters and digits -/

section Alphanum

variable {cs : List Char}

theorem underscore_not_mem_of_isAlphanum (h : ∀ c ∈ cs, c.isAlphanum = true) : '_' ∉ cs :=
  fun hm => absurd (h _ hm) (by decide)

/-- Words that hold no underscore are one word. -/
theorem pascal_of_not_mem {s : String} (h : '_' ∉ s.toList) : pascal s = capitalize s := by
  rw [pascal, pieces_of_not_mem h, capitalize, List.flatMap_singleton]

theorem mapFirst_upper_of_not_isLower (h : ∀ c ∈ cs, c.isAlphanum = true)
    (hl : ∀ c rest, cs = c :: rest → c.isLower = false) : mapFirst upper cs = cs := by
  cases cs with
  | nil => rfl
  | cons c rest =>
    have hc : c.isAlphanum = true := h c List.mem_cons_self
    rw [mapFirst, upper_of_isAlphanum hc, toUpper_of_not_isLower hc (hl c rest rfl)]
    rfl

/-- The first character is found again from its small form. -/
theorem mapFirst_upper_mapFirst_lower (h : ∀ c ∈ cs, c.isAlphanum = true)
    (hl : ∀ c rest, cs = c :: rest → c.isLower = false) :
    mapFirst upper (mapFirst lower cs) = cs := by
  cases cs with
  | nil => rfl
  | cons c rest =>
    have hc : c.isAlphanum = true := h c List.mem_cons_self
    rw [mapFirst, lower_of_isAlphanum hc, List.singleton_append, mapFirst,
      upper_of_isAlphanum (isAlphanum_toLower hc), toUpper_toLower hc (hl c rest rfl)]
    rfl

theorem map_toLower_mapFirst (h : ∀ c ∈ cs, c.isAlphanum = true) :
    (mapFirst upper cs).map Char.toLower = cs.map Char.toLower ∧
      (mapFirst lower cs).map Char.toLower = cs.map Char.toLower := by
  cases cs with
  | nil => exact ⟨rfl, rfl⟩
  | cons c rest =>
    have hc : c.isAlphanum = true := h c List.mem_cons_self
    obtain ⟨hupper, hlower⟩ := toLower_toUpper_and_toLower hc
    rw [mapFirst, mapFirst, upper_of_isAlphanum hc, lower_of_isAlphanum hc]
    exact ⟨by simp [hupper], by simp [hlower]⟩

theorem folded_of_isAlphanum {s : String} (h : ∀ c ∈ s.toList, c.isAlphanum = true) :
    folded s = s.toList.map Char.toLower := by
  rw [folded, List.filter_eq_self.2]
  intro c hc
  simpa using fun he : c = '_' => underscore_not_mem_of_isAlphanum h (he ▸ hc)

end Alphanum

/-! ## Identifiers -/

/-- The pieces of a text together are its characters but for the separators. -/
theorem flatten_pieces (sep : Char) (cs : List Char) :
    (pieces sep cs).flatten = cs.filter (· ≠ sep) := by
  induction cs with
  | nil => rfl
  | cons c cs ih =>
    by_cases hc : c = sep
    · subst hc
      rw [pieces_cons_self, List.flatten_cons, ih]
      simp
    · obtain ⟨p, ps, hp, hcons⟩ := pieces_cons_of_ne hc cs
      rw [hp] at ih
      rw [hcons, List.filter_cons_of_pos (by simpa using hc), ← ih]
      rfl

theorem map_toLower_pascal {s : String} (h : isIdentifier s = true) :
    (pascal s).toList.map Char.toLower = folded s := by
  have hwords : ∀ w ∈ pieces '_' s.toList,
      (mapFirst upper w).map Char.toLower = w.map Char.toLower :=
    fun w hw => (map_toLower_mapFirst (isAlphanum_of_mem_word h hw)).1
  calc (pascal s).toList.map Char.toLower
      = (pieces '_' s.toList).flatMap fun w => (mapFirst upper w).map Char.toLower := by
        rw [pascal, String.toList_ofList, List.map_flatMap]
    _ = (pieces '_' s.toList).flatMap fun w => w.map Char.toLower := List.flatMap_congr hwords
    _ = (pieces '_' s.toList).flatten.map Char.toLower := by
        rw [List.map_flatten, List.flatMap_def]
    _ = folded s := by rw [flatten_pieces, folded]

theorem caseLaws {s : String} (h : isIdentifier s = true) : CaseLaws s := by
  have halphanum := isAlphanum_of_mem_pascal h
  have hcamel := isAlphanum_of_mem_camel h
  have hhead : ∀ c rest, (pascal s).toList = c :: rest → c.isLower = false :=
    fun c rest => head_pascal_not_lower h
  have hnot := underscore_not_mem_of_isAlphanum halphanum
  have hcapitalize : capitalize (pascal s) = pascal s := by
    rw [capitalize, mapFirst_upper_of_not_isLower halphanum hhead, String.ofList_toList]
  have hpascal : pascal (pascal s) = pascal s := by rw [pascal_of_not_mem hnot, hcapitalize]
  refine ⟨hnot, hpascal, hcapitalize, ?_, ?_, ?_, ?_⟩
  · rw [camel, hpascal, ← camel]
  · rw [pascal_of_not_mem (underscore_not_mem_of_isAlphanum hcamel), capitalize, toList_camel,
      mapFirst_upper_mapFirst_lower halphanum hhead, String.ofList_toList]
  · rw [folded_of_isAlphanum halphanum, map_toLower_pascal h]
  · rw [folded_of_isAlphanum hcamel, toList_camel, (map_toLower_mapFirst halphanum).2,
      map_toLower_pascal h]

/-- Identifiers keep the laws, and `camel` tells apart exactly those that `pascal` tells apart. -/
theorem caseLaws_of_isIdentifier {s t : String} (hs : isIdentifier s = true)
    (ht : isIdentifier t = true) : CaseLaws s ∧ (pascal s = pascal t ↔ camel s = camel t) := by
  refine ⟨caseLaws hs, fun h => ?_, camel_injective hs ht⟩
  rw [camel, camel, h]

theorem caseLaws_of_isIdentifier_add_user : isIdentifier "_add__user9" = true ∧
    isIdentifier "addUser9_" = true ∧ CaseLaws "_add__user9" ∧
      (pascal "_add__user9" = pascal "addUser9_" ↔ camel "_add__user9" = camel "addUser9_") := by
  have hs : isIdentifier "_add__user9" = true := by decide
  have ht : isIdentifier "addUser9_" = true := by decide
  exact ⟨hs, ht, caseLaws_of_isIdentifier hs ht⟩

end CommandSchema.Text
