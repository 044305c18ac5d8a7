import CommandSchema.Proofs.Text.Pieces
import CommandSchema.Text.Quoted

/-!
# Quoted text read back

A quoted text is read back as it was, whatever follows its closing quote.

* `unquote?_quoteBody`: the round trip; `quote_injective`: so a text is known from its quoted form.
* `le_toNat_of_mem_quote`: a quoted text holds no control, so it stays on its line.
* `Quotes`: a text that quotes names in turn; `Quotes.unique`: the names can be told from the text.
-/

namespace CommandSchema.Text

/-- A control is found again from the two digits that its escape ends with. -/
theorem hexUnit?_hexDigit {n : Nat} (h : n < 0x20) :
    hexUnit? '0' '0' (hexDigit (n / 16)) (hexDigit (n % 16)) = some n := by
  have hall : ∀ n < 0x20,
      hexUnit? '0' '0' (hexDigit (n / 16)) (hexDigit (n % 16)) = some n := by decide
  exact hall n h

theorem unquoteFrom_control {c : Char} (h : c.toNat < 0x20) (done rest : List Char) :
    unquoteFrom done
        (['\\', 'u', '0', '0', hexDigit (c.toNat / 16), hexDigit (c.toNat % 16)] ++ rest) =
      unquoteFrom (c :: done) rest := by
  have hlow : isLowSurrogate c.toNat = false := by
    simp only [isLowSurrogate, Bool.and_eq_false_iff, decide_eq_false_iff_not]
    omega
  have hhigh : isHighSurrogate c.toNat = false := by
    simp only [isHighSurrogate, Bool.and_eq_false_iff, decide_eq_false_iff_not]
    omega
  simp only [List.cons_append, List.nil_append, unquoteFrom, hexUnit?_hexDigit h]
  simp [hlow, hhigh]

theorem unquoteFrom_plain {c : Char} (hquote : c ≠ '\x22') (hslash : c ≠ '\\')
    (h : ¬ c.toNat < 0x20) (done rest : List Char) :
    unquoteFrom done (c :: rest) = unquoteFrom (c :: done) rest := by
  rw [unquoteFrom.eq_def]
  split
  case h_1 he => cases he
  case h_2 he => exact absurd (List.cons.inj he).1 hquote
  case h_3 he => exact absurd (List.cons.inj he).1 hslash
  case h_4 he => exact absurd (List.cons.inj he).1 hslash
  case h_5 d ds _ _ _ he =>
    obtain ⟨rfl, rfl⟩ := List.cons.inj he
    simp [h, hslash]

/-- One character is read back as it was written. -/
theorem unquoteFrom_quoteChar (c : Char) (done rest : List Char) :
    unquoteFrom done (quoteChar c ++ rest) = unquoteFrom (c :: done) rest := by
  unfold quoteChar
  by_cases h₁ : c = '\x22'
  · subst h₁; simp [unquoteFrom, shortEscape?]
  by_cases h₂ : c = '\\'
  · subst h₂; simp [unquoteFrom, shortEscape?]
  by_cases h₃ : c = '\x08'
  · subst h₃; simp [unquoteFrom, shortEscape?]
  by_cases h₄ : c = '\x0c'
  · subst h₄; simp [unquoteFrom, shortEscape?]
  by_cases h₅ : c = '\n'
  · subst h₅; simp [unquoteFrom, shortEscape?]
  by_cases h₆ : c = '\r'
  · subst h₆; simp [unquoteFrom, shortEscape?]
  by_cases h₇ : c = '\t'
  · subst h₇; simp [unquoteFrom, shortEscape?]
  rw [if_neg h₁, if_neg h₂, if_neg h₃, if_neg h₄, if_neg h₅, if_neg h₆, if_neg h₇]
  by_cases h : c.toNat < 0x20
  · rw [if_pos h]
    exact unquoteFrom_control h done rest
  · rw [if_neg h]
    exact unquoteFrom_plain h₁ h₂ h done rest

theorem unquoteFrom_quoteBody (cs done rest : List Char) :
    unquoteFrom done (quoteBody cs ++ '\x22' :: rest) = some (done.reverse ++ cs, rest) := by
  induction cs generalizing done with
  | nil => simp [quoteBody, unquoteFrom]
  | cons c cs ih =>
    have hbody : quoteBody (c :: cs) = quoteChar c ++ quoteBody cs := List.flatMap_cons
    rw [hbody, List.append_assoc, unquoteFrom_quoteChar, ih]
    simp

theorem unquote?_quoteBody (cs rest : List Char) :
    unquote? (quoteBody cs ++ '\x22' :: rest) = some (cs, rest) :=
  unquoteFrom_quoteBody cs [] rest

theorem toList_quote (s : String) :
    (quote s).toList = '\x22' :: quoteBody s.toList ++ ['\x22'] := by
  rw [quote, String.toList_ofList]

/-- What a character is written as holds no control. -/
theorem le_toNat_of_mem_quoteChar (c : Char) : ∀ d ∈ quoteChar c, 0x20 ≤ d.toNat := by
  have hdigit : ∀ n < 16, 0x20 ≤ (hexDigit n).toNat := by decide
  unfold quoteChar
  split_ifs with _ _ _ _ _ _ _ h
  any_goals simp
  · exact ⟨hdigit (c.toNat / 16) (by omega), hdigit (c.toNat % 16) (by omega)⟩
  · exact Nat.le_of_not_lt h

theorem le_toNat_of_mem_quote {s : String} {c : Char} (h : c ∈ (quote s).toList) :
    0x20 ≤ c.toNat := by
  rw [toList_quote] at h
  simp only [quoteBody, List.cons_append, List.mem_cons, List.mem_append, List.mem_flatMap,
    List.not_mem_nil, or_false] at h
  obtain rfl | ⟨d, -, hc⟩ | rfl := h
  · decide
  · exact le_toNat_of_mem_quoteChar d c hc
  · decide

theorem newline_not_mem_quote (s : String) : '\n' ∉ (quote s).toList := fun h =>
  absurd (le_toNat_of_mem_quote h) (by decide)

theorem quote_injective : Function.Injective quote := by
  intro s t h
  have hread := congrArg (fun q : String => unquote? (q.toList.drop 1)) h
  simp only [toList_quote, List.cons_append, List.drop_one, List.tail_cons, unquote?_quoteBody,
    Option.some.injEq, Prod.mk.injEq, and_true] at hread
  exact String.toList_inj.1 hread

/-! ## Texts that quote names -/

/-- A text without quotes of its own that has names in it, in turn, each of them quoted. -/
inductive Quotes : String → List String → Prop where
  | plain {text : String} (h : '\x22' ∉ text.toList) : Quotes text []
  | name {text rest : String} {names : List String} (n : String) (h : '\x22' ∉ text.toList)
    (hrest : Quotes rest names) : Quotes (text ++ quote n ++ rest) (n :: names)

theorem toList_append_quote_append (text n rest : String) :
    (text ++ quote n ++ rest).toList =
      text.toList ++ '\x22' :: (quoteBody n.toList ++ '\x22' :: rest.toList) := by
  simp [toList_quote]

theorem mem_toList_append_quote_append (text n rest : String) :
    '\x22' ∈ (text ++ quote n ++ rest).toList := by
  rw [toList_append_quote_append]
  exact List.mem_append_right _ List.mem_cons_self

/-- Texts are equal up to their first separator and after it. -/
theorem append_cons_inj {α : Type} {sep : α} {xs ys us vs : List α} (hx : sep ∉ xs) (hy : sep ∉ ys)
    (h : xs ++ sep :: us = ys ++ sep :: vs) : xs = ys ∧ us = vs := by
  induction xs generalizing ys with
  | nil =>
    cases ys with
    | nil => exact ⟨rfl, (List.cons.inj h).2⟩
    | cons y ys => exact absurd ((List.cons.inj h).1 ▸ List.mem_cons_self) hy
  | cons x xs ih =>
    cases ys with
    | nil => exact absurd ((List.cons.inj h).1 ▸ List.mem_cons_self) hx
    | cons y ys =>
      obtain ⟨rfl, hrest⟩ := List.cons.inj h
      obtain ⟨rfl, rfl⟩ :=
        ih (fun hm => hx (List.mem_cons_of_mem _ hm)) (fun hm => hy (List.mem_cons_of_mem _ hm))
          hrest
      exact ⟨rfl, rfl⟩

/-- A start of a text that does not hold a separator stands before the first one. -/
theorem prefix_of_prefix_append_cons {α : Type} {sep : α} {p a b : List α} (hp : sep ∉ p)
    (h : p <+: a ++ sep :: b) : p <+: a := by
  obtain ha | ⟨rest, rfl⟩ := List.prefix_or_prefix_of_prefix h (List.prefix_append a (sep :: b))
  · exact ha
  · rw [List.prefix_append_right_inj, List.prefix_cons_iff] at h
    obtain rfl | ⟨rest, rfl, -⟩ := h
    · simp
    · exact absurd (by simp) hp

/-- A first quote opens the first name, and its own closing quote ends it. -/
theorem Quotes.unique {text : String} {names names' : List String} (h : Quotes text names)
    (h' : Quotes text names') : names = names' := by
  induction h generalizing names' with
  | @plain text hplain =>
    revert hplain
    cases h' with
    | plain => exact fun _ => rfl
    | name => exact fun hplain => absurd (mem_toList_append_quote_append ..) hplain
  | @name text rest names n hplain _ ih =>
    generalize htext : text ++ quote n ++ rest = whole at h'
    cases h' with
    | plain hplain' =>
      subst htext
      exact absurd (mem_toList_append_quote_append ..) hplain'
    | @name text' rest' names' n' hplain' hrest' =>
      have hchars := congrArg String.toList htext
      rw [toList_append_quote_append, toList_append_quote_append] at hchars
      have hread := congrArg unquote? (append_cons_inj hplain hplain' hchars).2
      rw [unquote?_quoteBody, unquote?_quoteBody, Option.some.injEq, Prod.mk.injEq] at hread
      obtain rfl := String.toList_inj.1 hread.1
      obtain rfl := String.toList_inj.1 hread.2
      rw [ih hrest']

end CommandSchema.Text
