import Mathlib.Data.List.Forall2
import Mathlib.Data.List.Induction

/-!
# Readers that may fail

A reader gives a result or an error. A list is read member by member, and the first error ends it.

* `map_eq_ok_iff`, `map_eq_error_iff`, `mapError_eq_ok_iff`, `mapError_eq_error_iff`: a result or an
  error that is passed on.
* `FirstFails`: the first member of a list that fails.
* `mapM_eq_ok_iff`, `mapM_eq_error_iff`: what a list gives, and how it fails.
* `AllPass`, `FirstFaults`: the members of a list judged after those before them.
* `Judges.foldlM_eq_ok_iff`, `Judges.foldlM_eq_error_iff`: a loop that keeps what it has to know
  about the members before judges a list so.
-/

namespace CommandSchema

variable {α β γ ε : Type}

theorem map_eq_ok_iff {x : Except ε α} {f : α → β} {b : β} :
    x.map f = .ok b ↔ ∃ a, x = .ok a ∧ f a = b := by
  cases x <;> simp [Except.map]

theorem map_eq_error_iff {x : Except ε α} {f : α → β} {e : ε} :
    x.map f = .error e ↔ x = .error e := by
  cases x <;> simp [Except.map]

theorem mapError_ok (a : α) (f : ε → β) : (Except.ok a : Except ε α).mapError f = .ok a := rfl

theorem mapError_error (e : ε) (f : ε → β) :
    (Except.error e : Except ε α).mapError f = .error (f e) := rfl

theorem mapError_eq_ok_iff {x : Except ε α} {f : ε → β} {a : α} :
    x.mapError f = .ok a ↔ x = .ok a := by
  cases x <;> simp [mapError_ok, mapError_error]

theorem mapError_eq_error_iff {x : Except ε α} {f : ε → β} {e : β} :
    x.mapError f = .error e ↔ ∃ e', x = .error e' ∧ f e' = e := by
  cases x <;> simp [mapError_ok, mapError_error]

theorem bind_eq_ok_iff {x : Except ε α} {f : α → Except ε β} {b : β} :
    x >>= f = .ok b ↔ ∃ a, x = .ok a ∧ f a = .ok b := by
  cases x <;> simp [bind, Except.bind]

theorem bind_eq_error_iff {x : Except ε α} {f : α → Except ε β} {e : ε} :
    x >>= f = .error e ↔ x = .error e ∨ ∃ a, x = .ok a ∧ f a = .error e := by
  cases x <;> simp [bind, Except.bind]

/-- Of a step without a result it counts only whether it fails. -/
theorem step_eq_ok_iff {x : Except ε Unit} {f : Unit → Except ε β} {b : β} :
    x >>= f = .ok b ↔ x = .ok () ∧ f () = .ok b := by
  cases x <;> simp [bind, Except.bind]

theorem step_eq_error_iff {x : Except ε Unit} {f : Unit → Except ε β} {e : ε} :
    x >>= f = .error e ↔ x = .error e ∨ x = .ok () ∧ f () = .error e := by
  cases x <;> simp [bind, Except.bind]

theorem mapM_cons_of_ok {f : α → Except ε β} {a : α} {b : β} (h : f a = .ok b) (l : List α) :
    (a :: l).mapM f = (l.mapM f).map (b :: ·) := by
  rw [List.mapM_cons, h]
  cases l.mapM f <;> rfl

theorem mapM_cons_of_error {f : α → Except ε β} {a : α} {e : ε} (h : f a = .error e)
    (l : List α) : (a :: l).mapM f = .error e := by
  rw [List.mapM_cons, h]
  rfl

/-- A list gives what each of its members gives. -/
theorem mapM_eq_ok_iff {f : α → Except ε β} {l : List α} {bs : List β} :
    l.mapM f = .ok bs ↔ List.Forall₂ (fun a b => f a = .ok b) l bs := by
  induction l generalizing bs with
  | nil =>
    rw [List.mapM_nil, List.forall₂_nil_left_iff]
    exact ⟨fun h => (Except.ok.inj h).symm, fun h => h ▸ rfl⟩
  | cons a l ih =>
    rw [List.forall₂_cons_left_iff]
    cases ha : f a with
    | error e => simp [mapM_cons_of_error ha]
    | ok b =>
      rw [mapM_cons_of_ok ha, map_eq_ok_iff]
      simp [ih, eq_comm (a := bs)]

/-- Members that give something each give a list. -/
theorem exists_forall₂_iff {R : α → β → Prop} {l : List α} :
    (∃ bs, List.Forall₂ R l bs) ↔ ∀ a ∈ l, ∃ b, R a b := by
  induction l with
  | nil => simp
  | cons a l ih =>
    rw [List.forall_mem_cons, ← ih]
    constructor
    · rintro ⟨_, _ | ⟨hb, hbs⟩⟩
      exact ⟨⟨_, hb⟩, _, hbs⟩
    · rintro ⟨⟨b, hb⟩, bs, hbs⟩
      exact ⟨b :: bs, .cons hb hbs⟩

/-- A list is read if each of its members is. -/
theorem exists_mapM_iff {f : α → Except ε β} {l : List α} :
    (∃ bs, l.mapM f = .ok bs) ↔ ∀ a ∈ l, ∃ b, f a = .ok b := by
  simp only [mapM_eq_ok_iff, exists_forall₂_iff]

/-- Some member of a list fails with an error, and all members before it are read. Those after it do
not matter. -/
def FirstFails (isRead : α → Prop) (fails : α → ε → Prop) (l : List α) (e : ε) : Prop :=
  ∃ before a after, l = before ++ a :: after ∧ (∀ b ∈ before, isRead b) ∧ fails a e

theorem firstFails_cons {isRead : α → Prop} {fails : α → ε → Prop} {a : α} {l : List α} {e : ε} :
    FirstFails isRead fails (a :: l) e ↔ fails a e ∨ (isRead a ∧ FirstFails isRead fails l e) := by
  constructor
  · rintro ⟨before, b, after, hl, hbefore, hb⟩
    cases before with
    | nil =>
      obtain ⟨rfl, -⟩ := List.cons.inj hl
      exact .inl hb
    | cons x before =>
      obtain ⟨rfl, rfl⟩ := List.cons.inj hl
      obtain ⟨ha, hbefore⟩ := List.forall_mem_cons.1 hbefore
      exact .inr ⟨ha, before, b, after, rfl, hbefore, hb⟩
  · rintro (ha | ⟨ha, before, b, after, rfl, hbefore, hb⟩)
    · exact ⟨[], a, l, rfl, by simp, ha⟩
    · exact ⟨a :: before, b, after, rfl, List.forall_mem_cons.2 ⟨ha, hbefore⟩, hb⟩

/-- A list fails as the first of its members that does. -/
theorem mapM_eq_error_iff {f : α → Except ε β} {l : List α} {e : ε} :
    l.mapM f = .error e ↔
      FirstFails (fun a => ∃ b, f a = .ok b) (fun a e => f a = .error e) l e := by
  induction l with
  | nil => simp [FirstFails, List.mapM_nil, pure, Except.pure]
  | cons a l ih =>
    rw [firstFails_cons, ← ih]
    cases ha : f a with
    | error e' => simp [mapM_cons_of_error ha]
    | ok b => simp [mapM_cons_of_ok ha, map_eq_error_iff]

/-- A list passes if each of its members does. -/
theorem forM_eq_ok_iff {f : α → Except ε Unit} {l : List α} :
    l.forM f = .ok () ↔ ∀ a ∈ l, f a = .ok () := by
  induction l with
  | nil => exact iff_of_true rfl (by simp)
  | cons a l ih =>
    rw [List.forall_mem_cons, ← ih]
    exact step_eq_ok_iff

theorem forM_eq_error_iff {f : α → Except ε Unit} {l : List α} {e : ε} :
    l.forM f = .error e ↔ FirstFails (fun a => f a = .ok ()) (fun a e => f a = .error e) l e := by
  induction l with
  | nil => simp [FirstFails, List.forM, pure, Except.pure]
  | cons a l ih =>
    rw [firstFails_cons, ← ih]
    exact step_eq_error_iff

/-! ## Members judged after those before them -/

/-- Every member of a list passes after those before it. -/
def AllPass (passes : List α → α → Prop) (l : List α) : Prop :=
  ∀ before a after, l = before ++ a :: after → passes before a

/-- Some member of a list fails after those before it, all of which pass. Those after it do not
matter. -/
def FirstFaults (passes : List α → α → Prop) (fails : List α → α → ε → Prop) (l : List α) (e : ε) :
    Prop :=
  ∃ before a after, l = before ++ a :: after ∧ AllPass passes before ∧ fails before a e

theorem allPass_nil {passes : List α → α → Prop} : AllPass passes [] := by simp [AllPass]

theorem allPass_concat {passes : List α → α → Prop} {l : List α} {a : α} :
    AllPass passes (l ++ [a]) ↔ AllPass passes l ∧ passes l a := by
  constructor
  · intro h
    refine ⟨fun before b after hl => h before b (after ++ [a]) (by simp [hl]), h l a [] rfl⟩
  · rintro ⟨hl, ha⟩ before b after hs
    obtain rfl | ⟨after, z, rfl⟩ := after.eq_nil_or_concat
    · obtain ⟨rfl, hb⟩ := List.append_inj' hs rfl
      obtain rfl := List.singleton_inj.1 hb
      exact ha
    · rw [List.concat_eq_append, ← List.cons_append, ← List.append_assoc] at hs
      exact hl before b after (List.append_inj' hs rfl).1

theorem firstFaults_concat {passes : List α → α → Prop} {fails : List α → α → ε → Prop}
    {l : List α} {a : α} {e : ε} :
    FirstFaults passes fails (l ++ [a]) e ↔
      FirstFaults passes fails l e ∨ AllPass passes l ∧ fails l a e := by
  constructor
  · rintro ⟨before, b, after, hs, hbefore, hb⟩
    obtain rfl | ⟨after, z, rfl⟩ := after.eq_nil_or_concat
    · obtain ⟨rfl, hab⟩ := List.append_inj' hs rfl
      obtain rfl := List.singleton_inj.1 hab
      exact .inr ⟨hbefore, hb⟩
    · rw [List.concat_eq_append, ← List.cons_append, ← List.append_assoc] at hs
      exact .inl ⟨before, b, after, (List.append_inj' hs rfl).1, hbefore, hb⟩
  · rintro (⟨before, b, after, rfl, hbefore, hb⟩ | ⟨hl, ha⟩)
    · exact ⟨before, b, after ++ [a], by simp, hbefore, hb⟩
    · exact ⟨l, a, [], rfl, hl, ha⟩

/-- One round of a loop judges a member after those before it, of which it knows that they pass, and
keeps what has to be known about all of them. -/
structure Judges {σ : Type} (step : σ → α → Except ε σ) (known : List α → σ)
    (passes : List α → α → Prop) (fails : List α → α → ε → Prop) : Prop where
  passes_iff : ∀ before a s, AllPass passes before →
    (step (known before) a = .ok s ↔ passes before a ∧ s = known (before ++ [a]))
  fails_iff : ∀ before a e, AllPass passes before →
    (step (known before) a = .error e ↔ fails before a e)

section Loops

variable {σ : Type} {step : σ → α → Except ε σ} {known : List α → σ}
  {passes : List α → α → Prop} {fails : List α → α → ε → Prop} {l : List α}

theorem foldlM_concat (s : σ) (a : α) :
    (l ++ [a]).foldlM step s = l.foldlM step s >>= fun s' => step s' a := by
  simp [List.foldlM_append]

/-- The loop ends with what has to be known if all members pass. -/
theorem Judges.foldlM_eq_ok_iff (h : Judges step known passes fails) {s : σ} :
    l.foldlM step (known []) = .ok s ↔ AllPass passes l ∧ s = known l := by
  induction l using List.reverseRecOn generalizing s with
  | nil => simp [allPass_nil, pure, Except.pure, eq_comm]
  | append_singleton l a ih =>
    rw [foldlM_concat, bind_eq_ok_iff, allPass_concat]
    constructor
    · rintro ⟨s', hs', ha⟩
      obtain ⟨hl, rfl⟩ := ih.1 hs'
      obtain ⟨hpass, hs⟩ := (h.passes_iff l a s hl).1 ha
      exact ⟨⟨hl, hpass⟩, hs⟩
    · rintro ⟨⟨hl, hpass⟩, hs⟩
      exact ⟨known l, ih.2 ⟨hl, rfl⟩, (h.passes_iff l a s hl).2 ⟨hpass, hs⟩⟩

/-- The loop ends with the error of the first member that fails. -/
theorem Judges.foldlM_eq_error_iff (h : Judges step known passes fails) {e : ε} :
    l.foldlM step (known []) = .error e ↔ FirstFaults passes fails l e := by
  induction l using List.reverseRecOn with
  | nil => simp [FirstFaults, pure, Except.pure]
  | append_singleton l a ih =>
    rw [foldlM_concat, bind_eq_error_iff, firstFaults_concat, ih]
    refine or_congr_right ?_
    constructor
    · rintro ⟨s', hs', ha⟩
      obtain ⟨hl, rfl⟩ := h.foldlM_eq_ok_iff.1 hs'
      exact ⟨hl, (h.fails_iff l a e hl).1 ha⟩
    · rintro ⟨hl, ha⟩
      exact ⟨known l, h.foldlM_eq_ok_iff.2 ⟨hl, rfl⟩, (h.fails_iff l a e hl).2 ha⟩

end Loops

end CommandSchema
