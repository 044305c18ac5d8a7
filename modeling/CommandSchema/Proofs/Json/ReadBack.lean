import CommandSchema.Json.Printer
import CommandSchema.Json.Reader
import CommandSchema.Proofs.Text.Quoted
import Mathlib.Data.List.DropRight

/-!
# JSON read back

A value without numbers is read back from its lines as it was, whatever text follows it.

* `Json.IsPlain`: the values, with how many arrays and objects lie in one another.
* `readValue?_prettyText`: the round trip inside a text.
* `read?_pretty`: the round trip of a whole text; `read?_quote`: that of a literal.
-/

namespace CommandSchema.Json

/-- A value without numbers in which no key stands twice in an object and at most `depth` arrays and
objects lie in one another. -/
inductive IsPlain : ℕ → Json → Prop where
  | null {depth : ℕ} : IsPlain depth .null
  | boolean {depth : ℕ} (b : Bool) : IsPlain depth (.boolean b)
  | string {depth : ℕ} (s : String) : IsPlain depth (.string s)
  | array {depth : ℕ} {items : List Json} (values : ∀ v ∈ items, IsPlain depth v) :
    IsPlain (depth + 1) (.array items)
  | object {depth : ℕ} {members : List (String × Json)} (keys : (members.map (·.1)).Nodup)
    (values : ∀ m ∈ members, IsPlain depth m.2) : IsPlain (depth + 1) (.object members)

theorem stringText_eq (s : String) :
    stringText s = '\x22' :: (Text.quoteBody s.toList ++ ['\x22']) :=
  Text.toList_quote s

/-! ## White space -/

theorem skipSpace_of_not_isSpace {c : Char} (h : isSpace c = false) (cs : List Char) :
    skipSpace (c :: cs) = c :: cs := by
  rw [skipSpace, List.dropWhile_cons_of_neg (by simp [h])]

theorem skipSpace_append {space : List Char} (h : ∀ c ∈ space, isSpace c = true) (cs : List Char) :
    skipSpace (space ++ cs) = skipSpace cs :=
  List.dropWhile_append_of_pos h

theorem isSpace_of_mem_newLine {level : ℕ} : ∀ c ∈ newLine level, isSpace c = true := by
  intro c hc
  obtain rfl | hc := List.mem_cons.1 hc
  · rfl
  · rw [List.eq_of_mem_replicate hc]
    rfl

@[simp] theorem length_newLine (level : ℕ) : (newLine level).length = 2 * level + 1 := by
  simp [newLine]

theorem skipSpace_newLine (level : ℕ) (cs : List Char) :
    skipSpace (newLine level ++ cs) = skipSpace cs :=
  skipSpace_append isSpace_of_mem_newLine cs

theorem skipSpace_skipSpace (cs : List Char) : skipSpace (skipSpace cs) = skipSpace cs := by
  unfold skipSpace
  exact List.dropWhile_idempotent _ _

/-! ## Readers in front of white space -/

theorem readValue?_skipSpace (fuel depth : ℕ) (cs : List Char) :
    readValue? fuel depth (skipSpace cs) = readValue? fuel depth cs := by
  cases fuel with
  | zero => rfl
  | succ fuel => rw [readValue?, readValue?, skipSpace_skipSpace]

theorem readItems?_skipSpace (fuel depth : ℕ) (cs : List Char) :
    readItems? fuel depth (skipSpace cs) = readItems? fuel depth cs := by
  cases fuel with
  | zero => rfl
  | succ fuel => rw [readItems?, readItems?, readValue?_skipSpace]

theorem readMembers?_skipSpace (fuel depth : ℕ) (cs : List Char) :
    readMembers? fuel depth (skipSpace cs) = readMembers? fuel depth cs := by
  have hkey : readKey? (skipSpace cs) = readKey? cs := by
    rw [readKey?, readKey?, skipSpace_skipSpace]
  cases fuel with
  | zero => rfl
  | succ fuel => rw [readMembers?, readMembers?, hkey]

/-- Items start at the first character that is no white space. -/
theorem readValue?_array {c : Char} {cs rest : List Char} (hstart : skipSpace cs = c :: rest)
    (hc : c ≠ ']') (fuel depth : ℕ) :
    readValue? (fuel + 1) (depth + 1) ('[' :: cs) =
      (readItems? fuel depth cs).map fun r => (.array r.1, r.2) := by
  rw [← readItems?_skipSpace, readValue?, skipSpace_of_not_isSpace (by rfl)]
  simp only [hstart, Nat.add_one_ne_zero, if_false, Nat.add_one_sub_one]
  split
  · next h => exact absurd (List.cons.inj h).1 hc
  · rfl

theorem readValue?_object {c : Char} {cs rest : List Char} (hstart : skipSpace cs = c :: rest)
    (hc : c ≠ '\x7d') (fuel depth : ℕ) :
    readValue? (fuel + 1) (depth + 1) ('\x7b' :: cs) =
      (readMembers? fuel depth cs).map fun r => (.object (keepLast r.1), r.2) := by
  rw [← readMembers?_skipSpace, readValue?, skipSpace_of_not_isSpace (by rfl)]
  simp only [hstart, Nat.add_one_ne_zero, if_false, Nat.add_one_sub_one]
  split
  · next h => exact absurd (List.cons.inj h).1 hc
  · rfl

theorem readValue?_quote (fuel depth : ℕ) (cs : List Char) :
    readValue? (fuel + 1) depth ('\x22' :: cs) =
      (Text.unquote? cs).map fun r => (.string (.ofList r.1), r.2) :=
  rfl

theorem readKey?_stringText (level : ℕ) (key : String) (rest : List Char) :
    readKey? (newLine level ++ stringText key ++ ':' :: rest) = some (key, rest) := by
  rw [readKey?, List.append_assoc, skipSpace_newLine, stringText_eq]
  simp only [List.cons_append, List.append_assoc, List.nil_append,
    skipSpace_of_not_isSpace (c := '\x22') rfl, Text.unquote?_quoteBody,
    skipSpace_of_not_isSpace (c := ':') rfl, String.ofList_toList]

/-- Distinct keys are all kept. -/
theorem keepLast_eq_self {members : List (String × Json)} (h : (members.map (·.1)).Nodup) :
    keepLast members = members := by
  induction members with
  | nil => rfl
  | cons m members ih =>
    rw [List.map_cons, List.nodup_cons] at h
    have hlast : ¬ (members.any fun n => n.1 == m.1) = true := by
      simp only [List.any_eq_true, beq_iff_eq, not_exists, not_and]
      exact fun n hn he => h.1 (he ▸ List.mem_map_of_mem hn)
    rw [keepLast, if_neg hlast, ih h.2]

/-! ## Values -/

/-- A value is read back from its lines, with fuel for each of their characters. -/
def ReadsBack (depth : ℕ) (v : Json) : Prop :=
  ∀ level fuel rest, (prettyText level v).length ≤ fuel →
    readValue? fuel depth (prettyText level v ++ rest) = some (v, rest)

section Parts

variable {depth : ℕ}

theorem ReadsBack.readValue?_newLine {v : Json} (hv : ReadsBack depth v) {level fuel : ℕ}
    (hfuel : (prettyText level v).length ≤ fuel) (rest : List Char) :
    readValue? fuel depth (newLine level ++ prettyText level v ++ rest) = some (v, rest) := by
  rw [← readValue?_skipSpace, List.append_assoc, skipSpace_newLine, readValue?_skipSpace]
  exact hv level fuel rest hfuel

theorem readItems?_prettyItems {items : List Json} (hne : items ≠ [])
    (hitems : ∀ v ∈ items, ReadsBack depth v) (level outer : ℕ) {fuel : ℕ}
    (hfuel : (prettyItems level items).length ≤ fuel) (rest : List Char) :
    readItems? fuel depth (prettyItems level items ++ (newLine outer ++ ']' :: rest)) =
      some (items, rest) := by
  induction items generalizing fuel with
  | nil => exact absurd rfl hne
  | cons v items ih =>
    have hv := hitems v List.mem_cons_self
    cases items with
    | nil =>
      simp only [prettyItems, List.length_append, length_newLine] at hfuel ⊢
      obtain ⟨fuel, rfl⟩ := Nat.exists_eq_add_of_le' (show 1 ≤ fuel by omega)
      rw [readItems?, hv.readValue?_newLine (by omega)]
      simp only [skipSpace_newLine, skipSpace_of_not_isSpace (c := ']') rfl]
    | cons w items =>
      simp only [prettyItems, List.length_append, List.length_cons, length_newLine,
        List.append_assoc, List.cons_append] at hfuel ⊢
      obtain ⟨fuel, rfl⟩ := Nat.exists_eq_add_of_le' (show 1 ≤ fuel by omega)
      rw [readItems?, ← List.append_assoc, hv.readValue?_newLine (by omega)]
      simp only [skipSpace_of_not_isSpace (c := ',') rfl]
      rw [ih (by simp) (fun u hu => hitems u (List.mem_cons_of_mem _ hu)) (by omega)]
      rfl

theorem readMembers?_prettyMembers {members : List (String × Json)} (hne : members ≠ [])
    (hmembers : ∀ m ∈ members, ReadsBack depth m.2) (level outer : ℕ) {fuel : ℕ}
    (hfuel : (prettyMembers level members).length ≤ fuel) (rest : List Char) :
    readMembers? fuel depth (prettyMembers level members ++ (newLine outer ++ '\x7d' :: rest)) =
      some (members, rest) := by
  induction members generalizing fuel with
  | nil => exact absurd rfl hne
  | cons m members ih =>
    obtain ⟨key, v⟩ := m
    have hv : ReadsBack depth v := hmembers (key, v) List.mem_cons_self
    have hspace (fuel : ℕ) (cs : List Char) :
        readValue? fuel depth (' ' :: cs) = readValue? fuel depth cs := by
      rw [← readValue?_skipSpace]
      exact readValue?_skipSpace fuel depth cs
    cases members with
    | nil =>
      simp only [prettyMembers, List.length_append, List.length_cons, length_newLine,
        List.append_assoc, List.cons_append] at hfuel ⊢
      obtain ⟨fuel, rfl⟩ := Nat.exists_eq_add_of_le' (show 1 ≤ fuel by omega)
      rw [readMembers?, ← List.append_assoc, readKey?_stringText]
      simp only [hspace]
      rw [hv level fuel _ (by omega)]
      simp only [skipSpace_newLine, skipSpace_of_not_isSpace (c := '\x7d') rfl]
    | cons n members =>
      simp only [prettyMembers, List.length_append, List.length_cons, length_newLine,
        List.append_assoc, List.cons_append] at hfuel ⊢
      obtain ⟨fuel, rfl⟩ := Nat.exists_eq_add_of_le' (show 1 ≤ fuel by omega)
      rw [readMembers?, ← List.append_assoc, readKey?_stringText]
      simp only [hspace]
      rw [hv level fuel _ (by omega)]
      simp only [skipSpace_of_not_isSpace (c := ',') rfl]
      rw [ih (by simp) (fun u hu => hmembers u (List.mem_cons_of_mem _ hu)) (by omega)]
      rfl

end Parts

/-- The text of a value starts with a character of its own. -/
theorem exists_prettyText_eq_cons {depth : ℕ} {v : Json} (h : IsPlain depth v) (level : ℕ) :
    ∃ c cs, prettyText level v = c :: cs ∧ isSpace c = false ∧ c ≠ ']' := by
  cases h with
  | null => exact ⟨'n', _, rfl, rfl, by decide⟩
  | boolean b =>
    cases b with
    | false => exact ⟨'f', _, rfl, rfl, by decide⟩
    | true => exact ⟨'t', _, rfl, rfl, by decide⟩
  | string s => exact ⟨'\x22', _, stringText_eq s, rfl, by decide⟩
  | @array depth items _ => cases items <;> exact ⟨'[', _, rfl, rfl, by decide⟩
  | @object depth members _ _ => cases members <;> exact ⟨'\x7b', _, rfl, rfl, by decide⟩

theorem exists_prettyItems_eq (level : ℕ) (v : Json) (items : List Json) :
    ∃ tail, prettyItems level (v :: items) = newLine level ++ (prettyText level v ++ tail) := by
  cases items with
  | nil => exact ⟨[], by simp [prettyItems]⟩
  | cons w items => exact ⟨_, by rw [prettyItems, List.append_assoc]⟩

theorem exists_prettyMembers_eq (level : ℕ) (m : String × Json) (members : List (String × Json)) :
    ∃ tail, prettyMembers level (m :: members) = newLine level ++ '\x22' :: tail := by
  obtain ⟨key, v⟩ := m
  cases members with
  | nil => exact ⟨_, by rw [prettyMembers, stringText_eq, List.append_assoc, List.cons_append]⟩
  | cons n members =>
    exact ⟨_, by
      rw [prettyMembers, stringText_eq, List.append_assoc, List.append_assoc, List.cons_append]⟩

theorem readsBack_string (depth : ℕ) (s : String) : ReadsBack depth (.string s) := by
  intro level fuel rest hfuel
  rw [prettyText, stringText_eq] at hfuel ⊢
  obtain ⟨fuel, rfl⟩ := Nat.exists_eq_add_of_le' (Nat.one_le_of_lt hfuel)
  rw [List.cons_append, List.append_assoc, readValue?_quote, List.singleton_append,
    Text.unquote?_quoteBody, Option.map_some, String.ofList_toList]

theorem readsBack_array {depth : ℕ} {items : List Json} (hplain : ∀ v ∈ items, IsPlain depth v)
    (hitems : ∀ v ∈ items, ReadsBack depth v) : ReadsBack (depth + 1) (.array items) := by
  intro level fuel rest hfuel
  cases items with
  | nil =>
    obtain ⟨fuel, rfl⟩ := Nat.exists_eq_add_of_le' (Nat.one_le_of_lt hfuel)
    rfl
  | cons v items =>
    obtain ⟨c, cs, htext, hspace, hc⟩ :=
      exists_prettyText_eq_cons (hplain v List.mem_cons_self) (level + 1)
    obtain ⟨tail, htail⟩ := exists_prettyItems_eq (level + 1) v items
    simp only [prettyText, List.length_append, List.length_cons, List.cons_append,
      List.append_assoc, List.nil_append] at hfuel ⊢
    obtain ⟨fuel, rfl⟩ := Nat.exists_eq_add_of_le' (Nat.one_le_of_lt hfuel)
    have hstart : ∃ rest', skipSpace (prettyItems (level + 1) (v :: items) ++
        (newLine level ++ ']' :: rest)) = c :: rest' := by
      rw [htail, htext, List.append_assoc, skipSpace_newLine, List.append_assoc, List.cons_append,
        skipSpace_of_not_isSpace hspace]
      exact ⟨_, rfl⟩
    obtain ⟨rest', hstart⟩ := hstart
    rw [readValue?_array hstart hc,
      readItems?_prettyItems (by simp) hitems (level + 1) level (by omega)]
    rfl

theorem readsBack_object {depth : ℕ} {members : List (String × Json)}
    (hkeys : (members.map (·.1)).Nodup) (hmembers : ∀ m ∈ members, ReadsBack depth m.2) :
    ReadsBack (depth + 1) (.object members) := by
  intro level fuel rest hfuel
  cases members with
  | nil =>
    obtain ⟨fuel, rfl⟩ := Nat.exists_eq_add_of_le' (Nat.one_le_of_lt hfuel)
    rfl
  | cons m members =>
    obtain ⟨tail, htail⟩ := exists_prettyMembers_eq (level + 1) m members
    simp only [prettyText, List.length_append, List.length_cons, List.cons_append,
      List.append_assoc, List.nil_append] at hfuel ⊢
    obtain ⟨fuel, rfl⟩ := Nat.exists_eq_add_of_le' (Nat.one_le_of_lt hfuel)
    have hstart : ∃ rest', skipSpace (prettyMembers (level + 1) (m :: members) ++
        (newLine level ++ '\x7d' :: rest)) = '\x22' :: rest' := by
      rw [htail, List.append_assoc, skipSpace_newLine, List.cons_append,
        skipSpace_of_not_isSpace rfl]
      exact ⟨_, rfl⟩
    obtain ⟨rest', hstart⟩ := hstart
    rw [readValue?_object hstart (by decide),
      readMembers?_prettyMembers (by simp) hmembers (level + 1) level (by omega), Option.map_some,
      keepLast_eq_self hkeys]

/-- A value without numbers is read back from its lines. -/
theorem readsBack_of_isPlain {depth : ℕ} {v : Json} (h : IsPlain depth v) : ReadsBack depth v := by
  induction h with
  | null =>
    intro level fuel rest hfuel
    obtain ⟨fuel, rfl⟩ := Nat.exists_eq_add_of_le' (Nat.one_le_of_lt hfuel)
    rfl
  | boolean b =>
    intro level fuel rest hfuel
    cases b with
    | false =>
      obtain ⟨fuel, rfl⟩ := Nat.exists_eq_add_of_le' (Nat.one_le_of_lt hfuel)
      rfl
    | true =>
      obtain ⟨fuel, rfl⟩ := Nat.exists_eq_add_of_le' (Nat.one_le_of_lt hfuel)
      rfl
  | string s => exact readsBack_string _ s
  | array values ih => exact readsBack_array values ih
  | object keys _ ih => exact readsBack_object keys ih

/-- A value that does not lie too deep is the one that its text writes. -/
theorem read?_pretty {v : Json} (h : IsPlain maxDepth v) : read? v.pretty = some v := by
  have hread := readsBack_of_isPlain h 0 (2 * (prettyText 0 v).length + 2) [] (by omega)
  rw [List.append_nil] at hread
  rw [read?, pretty, String.toList_ofList]
  simp only [hread]
  rfl

/-! ## Literals -/

/-- A quoted text is the JSON of the text. -/
theorem read?_quote (s : String) : read? (Text.quote s) = some (.string s) := by
  have htext : (Json.string s).pretty = Text.quote s := String.ofList_toList
  rw [← htext]
  exact read?_pretty (.string s)

/-- It is read up to its end, whatever follows it. -/
theorem readScalar?_quote (s : String) (rest : List Char) :
    readScalar? ((Text.quote s).toList ++ rest) = some (.string s, rest) := by
  have htext : (Text.quote s).toList ++ rest =
      '\x22' :: (Text.quoteBody s.toList ++ '\x22' :: rest) := by
    simp [Text.toList_quote]
  rw [htext, readScalar?, Text.unquote?_quoteBody]
  simp

end CommandSchema.Json
