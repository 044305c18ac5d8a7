import CommandSchema.Proofs.Layout

/-!
# Steps that leave the level as it was

Balanced steps go out as often as they go in, and never further out than where they start. The
outermost level stays where it is when a step goes out of it, which would hide that one such step is
too many; balanced steps never take it there.

* `Layout.Balanced`: the property.
* `Layout.Balanced.append`, `Layout.Balanced.enclose`, `Layout.balanced_flatMap`: how balanced steps
  are put together.
-/

namespace CommandSchema.Layout

/-- The step goes one level in. -/
def Step.goesIn : Step → Bool
  | .indent | .opening _ => true
  | .line _ | .blank | .dedent | .closing _ => false

/-- The step goes one level out. -/
def Step.goesOut : Step → Bool
  | .dedent | .closing _ => true
  | .line _ | .blank | .indent | .opening _ => false

/-- The step goes neither in nor out. -/
def Step.isFlat (s : Step) : Bool := !s.goesIn && !s.goesOut

/-- The steps go in and out in pairs, wherever they start. -/
structure Balanced (steps : List Step) : Prop where
  matched : steps.countP Step.goesIn = steps.countP Step.goesOut
  /-- No step goes out of the level that the steps start at, so none goes out of the outermost. -/
  inside : ∀ (b : Builder) (before : List Step) (s : Step) (after : List Step),
    steps = before ++ s :: after → s.goesOut = true → b.level < (b.run before).level
  /-- The steps of a file start at the outermost level, so they end there. -/
  level : ∀ b : Builder, (b.run steps).level = b.level

/-! ## One step -/

section Step

variable {s : Step}

theorem Step.goesOut_of_goesIn (h : s.goesIn = true) : s.goesOut = false := by
  cases s with
  | indent | opening text => rfl
  | line text | blank | dedent | closing text => cases h

theorem Step.goesIn_of_goesOut (h : s.goesOut = true) : s.goesIn = false := by
  cases s with
  | dedent | closing text => rfl
  | line text | blank | indent | opening text => cases h

theorem level_step_of_goesIn (h : s.goesIn = true) (b : Builder) :
    (b.step s).level = b.level + 1 := by
  rw [level_step]
  cases s with
  | indent | opening text => rfl
  | line text | blank | dedent | closing text => cases h

theorem level_step_of_goesOut (h : s.goesOut = true) (b : Builder) :
    (b.step s).level = b.level - 1 := by
  rw [level_step]
  cases s with
  | dedent | closing text => rfl
  | line text | blank | indent | opening text => cases h

theorem level_step_of_isFlat (h : s.isFlat = true) (b : Builder) : (b.step s).level = b.level := by
  rw [level_step]
  cases s with
  | line text | blank => rfl
  | indent | dedent | opening text | closing text => cases h

end Step

/-! ## Parts of steps -/

/-- A step of two parts is one of the first part or one of the second. -/
theorem split_append {first second before after : List Step} {s : Step}
    (h : first ++ second = before ++ s :: after) :
    (∃ rest, first = before ++ s :: rest) ∨
      ∃ front, before = first ++ front ∧ second = front ++ s :: after := by
  obtain ⟨front, hbefore, hsecond⟩ | ⟨rest, hfirst, hrest⟩ := List.append_eq_append_iff.1 h
  · exact .inr ⟨front, hbefore, hsecond⟩
  · cases rest with
    | nil => exact .inr ⟨[], by simpa using hfirst.symm, by simpa using hrest.symm⟩
    | cons t rest =>
      obtain ⟨rfl, -⟩ := List.cons.inj hrest
      exact .inl ⟨rest, hfirst⟩

theorem balanced_nil : Balanced [] where
  matched := rfl
  inside _ before s after h := by simp at h
  level _ := rfl

theorem Balanced.append {first second : List Step} (hfirst : Balanced first)
    (hsecond : Balanced second) : Balanced (first ++ second) where
  matched := by rw [List.countP_append, List.countP_append, hfirst.matched, hsecond.matched]
  inside b before s after h hs := by
    obtain ⟨rest, rfl⟩ | ⟨front, rfl, rfl⟩ := split_append h
    · exact hfirst.inside b before s rest rfl hs
    · rw [run_append, ← hfirst.level b]
      exact hsecond.inside (b.run first) front s after rfl hs
  level b := by rw [run_append, hsecond.level, hfirst.level]

theorem balanced_singleton {s : Step} (h : s.isFlat = true) : Balanced [s] := by
  have hs : s.goesIn = false ∧ s.goesOut = false := by simpa [Step.isFlat] using h
  refine ⟨by simp [hs], fun b before t after he ht => ?_, level_step_of_isFlat h⟩
  obtain rfl : t = s := by
    have hmem : t ∈ [s] := he ▸ List.mem_append_right before List.mem_cons_self
    exact List.mem_singleton.1 hmem
  rw [hs.2] at ht
  cases ht

/-- Steps that go neither in nor out are balanced. -/
theorem balanced_of_isFlat {steps : List Step} (h : steps.all Step.isFlat = true) :
    Balanced steps := by
  induction steps with
  | nil => exact balanced_nil
  | cons s steps ih =>
    obtain ⟨hs, hsteps⟩ := Bool.and_eq_true_iff.1 (List.all_cons ▸ h)
    exact (balanced_singleton hs).append (ih hsteps)

theorem balanced_map {α : Type} {f : α → Step} (h : ∀ a, (f a).isFlat = true) (l : List α) :
    Balanced (l.map f) := by
  refine balanced_of_isFlat ?_
  rw [List.all_map, List.all_eq_true]
  exact fun a _ => h a

theorem balanced_flatMap {α : Type} {f : α → List Step} {l : List α}
    (h : ∀ a ∈ l, Balanced (f a)) : Balanced (l.flatMap f) := by
  induction l with
  | nil => exact balanced_nil
  | cons a l ih =>
    rw [List.flatMap_cons]
    exact (h a List.mem_cons_self).append (ih fun b hb => h b (List.mem_cons_of_mem _ hb))

/-- A step that goes in, balanced steps, and a step that goes out. -/
theorem Balanced.enclose {steps : List Step} (h : Balanced steps) {s t : Step}
    (hs : s.goesIn = true) (ht : t.goesOut = true) : Balanced (s :: (steps ++ [t])) where
  matched := by
    have hs' := Step.goesOut_of_goesIn hs
    have ht' := Step.goesIn_of_goesOut ht
    simp [hs, ht, hs', ht', h.matched]
  inside b before u after he hu := by
    cases before with
    | nil =>
      obtain ⟨rfl, -⟩ := List.cons.inj he
      rw [Step.goesOut_of_goesIn hs] at hu
      cases hu
    | cons s' before =>
      obtain ⟨rfl, htail⟩ := List.cons.inj he
      show b.level < ((b.step s).run before).level
      have hstep := level_step_of_goesIn hs b
      obtain ⟨rest, rfl⟩ | ⟨front, rfl, hfront⟩ := split_append htail
      · have hinside := h.inside (b.step s) before u rest rfl hu
        omega
      · -- the step is the last one, and all that goes in behind the first one has gone out again
        cases front with
        | nil =>
          rw [List.append_nil, h.level, hstep]
          omega
        | cons t' front => simp at hfront
  level b := by
    show ((b.step s).run (steps ++ [t])).level = b.level
    rw [run_append]
    show (((b.step s).run steps).step t).level = b.level
    rw [level_step_of_goesOut ht, h.level, level_step_of_goesIn hs, Nat.add_sub_cancel]

end CommandSchema.Layout
