import CommandSchema.Proofs.Text.Pieces
import Mathlib.Data.List.Infix
import Mathlib.Data.List.Sort

/-!
# Runs between separators

The pieces of a text that hold a character are its longest runs without a separator. They are known
from both sides: from the ends of the runs in the text, and from the words of which the text is
made.

* `IsRun`, `Runs`: a longest run by its two ends, and all of them in order.
* `Spread`: words with separators around them.
* `runs_iff`, `spread_iff`: the runs of a text, and the words that it spreads, are its filled
  pieces.
* `exists_filledPieces_of_infix`: nothing but a separator cuts a text.
-/

namespace CommandSchema.Text

variable {sep : Char}

/-- A run of characters between two places of a text that holds no separator and cannot be made
longer to either side. -/
structure IsRun (sep : Char) (cs : List Char) (start stop : Nat) : Prop where
  filled : start < stop
  inside : stop ≤ cs.length
  plain : ∀ k, start ≤ k → k < stop → cs[k]? ≠ some sep
  left : ∀ k, k + 1 = start → cs[k]? = some sep
  right : ∀ c, cs[stop]? = some c → c = sep

/-- The words are the longest runs of the text, all of them in the order of their places. -/
def Runs (sep : Char) (cs : List Char) (words : List (List Char)) : Prop :=
  ∃ spans : List (Nat × Nat), spans.Pairwise (fun s t => s.1 < t.1) ∧
    (∀ s, s ∈ spans ↔ IsRun sep cs s.1 s.2) ∧
    words = spans.map fun s => (cs.drop s.1).take (s.2 - s.1)

/-- The words stand in the text one after the other: with any number of separators in front of the
first and behind the last, and with one at least between two of them. -/
inductive Spread (sep : Char) : List (List Char) → List Char → Prop where
  | none (n : Nat) : Spread sep [] (List.replicate n sep)
  /-- Nothing follows the last word. -/
  | last (n : Nat) {w : List Char} (filled : w ≠ []) (plain : sep ∉ w) :
    Spread sep [w] (List.replicate n sep ++ w)
  /-- A separator follows the word. Further ones stand in front of what comes next. -/
  | cons (n : Nat) {w : List Char} {ws : List (List Char)} {cs : List Char} (filled : w ≠ [])
    (plain : sep ∉ w) (rest : Spread sep ws cs) :
    Spread sep (w :: ws) (List.replicate n sep ++ (w ++ sep :: cs))

/-- A text holds no separator, or it is cut at its first one. -/
theorem cut_induction (sep : Char) {P : List Char → Prop} (plain : ∀ a, sep ∉ a → P a)
    (cut : ∀ a b, sep ∉ a → P b → P (a ++ sep :: b)) (cs : List Char) : P cs := by
  induction hn : cs.length using Nat.strongRecOn generalizing cs with
  | ind n ih =>
    by_cases hsep : sep ∈ cs
    · obtain ⟨a, b, rfl, ha⟩ := List.eq_append_cons_of_mem hsep
      have hlt : b.length < n := by
        rw [← hn, List.length_append, List.length_cons]
        omega
      exact cut a b ha (ih b.length hlt b rfl)
    · exact plain cs hsep

/-! ## Words -/

theorem filledPieces_replicate_append (n : Nat) (cs : List Char) :
    filledPieces sep (List.replicate n sep ++ cs) = filledPieces sep cs := by
  induction n with
  | zero => rfl
  | succ n ih => rw [List.replicate_succ, List.cons_append, filledPieces_cons, ih]

theorem Spread.cons_sep {ws : List (List Char)} {cs : List Char} (h : Spread sep ws cs) :
    Spread sep ws (sep :: cs) := by
  cases h with
  | none n => exact .none (n + 1)
  | last n filled plain => exact .last (n + 1) filled plain
  | cons n filled plain rest => exact .cons (n + 1) filled plain rest

theorem Spread.filledPieces_eq {ws : List (List Char)} {cs : List Char} (h : Spread sep ws cs) :
    filledPieces sep cs = ws := by
  induction h with
  | none n =>
    rw [← List.append_nil (List.replicate n sep), filledPieces_replicate_append, filledPieces_nil]
  | last n filled plain =>
    rw [filledPieces_replicate_append, filledPieces_of_not_mem plain filled]
  | cons n filled plain rest ih =>
    rw [filledPieces_replicate_append, filledPieces_append_cons,
      filledPieces_of_not_mem plain filled, ih, List.singleton_append]

theorem spread_filledPieces (cs : List Char) : Spread sep (filledPieces sep cs) cs := by
  induction cs using cut_induction sep with
  | plain a ha =>
    by_cases hne : a = []
    · subst hne
      exact .none 0
    · rw [filledPieces_of_not_mem ha hne]
      exact .last 0 hne ha
  | cut a b ha ih =>
    by_cases hne : a = []
    · subst hne
      rw [List.nil_append, filledPieces_cons]
      exact ih.cons_sep
    · rw [filledPieces_append_cons, filledPieces_of_not_mem ha hne]
      exact .cons 0 hne ha ih

theorem spread_iff {ws : List (List Char)} {cs : List Char} :
    Spread sep ws cs ↔ ws = filledPieces sep cs :=
  ⟨fun h => h.filledPieces_eq.symm, fun h => h ▸ spread_filledPieces cs⟩

/-- Joined words stand with one separator between two of them. -/
theorem spread_intercalate {ws : List (List Char)} (h : ∀ w ∈ ws, w ≠ [] ∧ sep ∉ w) :
    Spread sep ws ([sep].intercalate ws) := by
  induction ws with
  | nil => exact .none 0
  | cons w ws ih =>
    obtain ⟨⟨hne, hw⟩, hws⟩ := List.forall_mem_cons.1 h
    cases ws with
    | nil => simpa [List.intercalate] using Spread.last 0 hne hw
    | cons v vs =>
      have hjoin : [sep].intercalate (w :: v :: vs) = w ++ sep :: [sep].intercalate (v :: vs) := by
        simp [List.intercalate, List.intersperse]
      rw [hjoin]
      exact .cons 0 hne hw (ih hws)

/-! ## Runs -/

/-- Without a separator there is one run, from end to end. -/
theorem isRun_of_not_mem {a : List Char} (h : sep ∉ a) {start stop : Nat} :
    IsRun sep a start stop ↔ a ≠ [] ∧ start = 0 ∧ stop = a.length := by
  have hfree : ∀ k, a[k]? ≠ some sep := fun k hk => h (List.mem_of_getElem? hk)
  constructor
  · intro hr
    have hstart : start = 0 := by
      cases start with
      | zero => rfl
      | succ k => exact absurd (hr.left k rfl) (hfree k)
    have hstop : stop = a.length := by
      refine Nat.le_antisymm hr.inside (Nat.not_lt.1 fun hlt => ?_)
      have hget := List.getElem?_eq_getElem hlt
      exact hfree stop (hget.trans (congrArg some (hr.right _ hget)))
    refine ⟨?_, hstart, hstop⟩
    rintro rfl
    exact absurd hr.filled (by simp [hstop])
  · rintro ⟨hne, rfl, rfl⟩
    refine ⟨List.length_pos_iff.2 hne, Nat.le_refl _, fun k _ _ => hfree k, ?_, ?_⟩
    · intro k hk
      cases hk
    · intro c hc
      simp at hc

section Append

variable {a b : List Char}

theorem getElem?_left (sep : Char) (b : List Char) {k : Nat} (h : k < a.length) :
    (a ++ sep :: b)[k]? = a[k]? :=
  List.getElem?_append_left h

theorem getElem?_sep : (a ++ sep :: b)[a.length]? = some sep := by simp

theorem getElem?_right (sep : Char) (a : List Char) (k : Nat) :
    (a ++ sep :: b)[a.length + 1 + k]? = b[k]? := by
  rw [List.getElem?_append_right (by omega)]
  have hk : a.length + 1 + k - a.length = k + 1 := by omega
  rw [hk, List.getElem?_cons_succ]

/-- A separator ends the runs in front of it. -/
theorem isRun_left {start stop : Nat} (hstop : stop ≤ a.length) :
    IsRun sep (a ++ sep :: b) start stop ↔ IsRun sep a start stop := by
  constructor
  · intro h
    have hfilled := h.filled
    refine ⟨hfilled, hstop, fun k hk hlt => ?_, fun k hk => ?_, fun c hc => ?_⟩
    · rw [← getElem?_left sep b (by omega)]
      exact h.plain k hk hlt
    · rw [← getElem?_left sep b (by omega)]
      exact h.left k hk
    · have hlt : stop < a.length := (List.getElem?_eq_some_iff.1 hc).1
      exact h.right c ((getElem?_left sep b hlt).trans hc)
  · intro h
    have hfilled := h.filled
    refine ⟨hfilled, ?_, fun k hk hlt => ?_, fun k hk => ?_, fun c hc => ?_⟩
    · rw [List.length_append]
      omega
    · rw [getElem?_left sep b (by omega)]
      exact h.plain k hk hlt
    · rw [getElem?_left sep b (by omega)]
      exact h.left k hk
    · rcases Nat.lt_or_eq_of_le hstop with hlt | rfl
      · exact h.right c ((getElem?_left sep b hlt).symm.trans hc)
      · exact (Option.some.inj (getElem?_sep.symm.trans hc)).symm

/-- A separator ends the runs behind it, whose places it moves. -/
theorem isRun_right {i j : Nat} :
    IsRun sep (a ++ sep :: b) (a.length + 1 + i) (a.length + 1 + j) ↔ IsRun sep b i j := by
  have hlength : (a ++ sep :: b).length = a.length + 1 + b.length := by
    rw [List.length_append, List.length_cons]
    omega
  constructor
  · intro h
    have hfilled := h.filled
    have hinside := h.inside
    refine ⟨by omega, by omega, fun k hk hlt => ?_, fun k hk => ?_, fun c hc => ?_⟩
    · rw [← getElem?_right sep a]
      exact h.plain _ (by omega) (by omega)
    · rw [← getElem?_right sep a]
      exact h.left _ (by omega)
    · exact h.right c ((getElem?_right sep a j).trans hc)
  · intro h
    have hfilled := h.filled
    have hinside := h.inside
    refine ⟨by omega, by omega, fun k hk hlt => ?_, fun k hk => ?_, fun c hc => ?_⟩
    · obtain ⟨k, rfl⟩ := Nat.exists_eq_add_of_le (Nat.le_trans (Nat.le_add_right _ i) hk)
      rw [getElem?_right]
      exact h.plain k (by omega) (by omega)
    · cases i with
      | zero =>
        obtain rfl : k = a.length := by omega
        exact getElem?_sep
      | succ i =>
        obtain rfl : k = a.length + 1 + i := by omega
        rw [getElem?_right]
        exact h.left i rfl
    · exact h.right c ((getElem?_right sep a j).symm.trans hc)

/-- A separator belongs to no run, so every run stands to one side of it. -/
theorem isRun_append_cons {start stop : Nat} :
    IsRun sep (a ++ sep :: b) start stop ↔
      IsRun sep a start stop ∨
        ∃ i j, start = a.length + 1 + i ∧ stop = a.length + 1 + j ∧ IsRun sep b i j := by
  constructor
  · intro h
    by_cases hstop : stop ≤ a.length
    · exact .inl ((isRun_left hstop).1 h)
    · have hstart : a.length < start := by
        refine Nat.not_le.1 fun hle => h.plain a.length hle (by omega) getElem?_sep
      obtain ⟨i, rfl⟩ := Nat.exists_eq_add_of_le hstart
      obtain ⟨j, rfl⟩ := Nat.exists_eq_add_of_le (Nat.lt_of_not_le hstop)
      exact .inr ⟨i, j, rfl, rfl, isRun_right.1 h⟩
  · rintro (h | ⟨i, j, rfl, rfl, h⟩)
    · exact (isRun_left h.inside).2 h
    · exact isRun_right.2 h

theorem runs_append_cons {ws vs : List (List Char)} (ha : Runs sep a ws) (hb : Runs sep b vs) :
    Runs sep (a ++ sep :: b) (ws ++ vs) := by
  obtain ⟨spans, hsorted, hspans, rfl⟩ := ha
  obtain ⟨spans', hsorted', hspans', rfl⟩ := hb
  let shift (s : Nat × Nat) : Nat × Nat := (a.length + 1 + s.1, a.length + 1 + s.2)
  refine ⟨spans ++ spans'.map shift, ?_, ?_, ?_⟩
  · refine List.pairwise_append.2 ⟨hsorted, ?_, ?_⟩
    · exact List.pairwise_map.2 (hsorted'.imp fun h => Nat.add_lt_add_left h _)
    · intro s hs t ht
      obtain ⟨t, -, rfl⟩ := List.mem_map.1 ht
      have hs := (hspans s).1 hs
      have := hs.filled
      have := hs.inside
      show s.1 < a.length + 1 + t.1
      omega
  · intro s
    rw [List.mem_append, hspans, isRun_append_cons, List.mem_map]
    refine or_congr_right ⟨?_, ?_⟩
    · rintro ⟨t, ht, rfl⟩
      exact ⟨t.1, t.2, rfl, rfl, (hspans' t).1 ht⟩
    · rintro ⟨i, j, hi, hj, h⟩
      exact ⟨(i, j), (hspans' (i, j)).2 h, Prod.ext hi.symm hj.symm⟩
  · rw [List.map_append, List.map_map]
    congr 1
    · refine List.map_congr_left fun s hs => ?_
      have hinside := ((hspans s).1 hs).inside
      rw [List.drop_append_of_le_length (by have := ((hspans s).1 hs).filled; omega),
        List.take_append_of_le_length (by rw [List.length_drop]; omega)]
    · refine List.map_congr_left fun s _ => ?_
      have hdrop : (a ++ sep :: b).drop (a.length + 1 + s.1) = b.drop s.1 := by
        rw [Nat.add_assoc, Nat.add_comm 1, ← List.drop_drop, List.drop_left, List.drop_succ_cons]
      have hlength : a.length + 1 + s.2 - (a.length + 1 + s.1) = s.2 - s.1 := by omega
      show _ = ((a ++ sep :: b).drop (a.length + 1 + s.1)).take
        (a.length + 1 + s.2 - (a.length + 1 + s.1))
      rw [hdrop, hlength]

end Append

theorem runs_filledPieces (cs : List Char) : Runs sep cs (filledPieces sep cs) := by
  have hplain : ∀ a, sep ∉ a → Runs sep a (filledPieces sep a) := by
    intro a ha
    by_cases hne : a = []
    · subst hne
      exact ⟨[], .nil, by simp [isRun_of_not_mem], rfl⟩
    · refine ⟨[(0, a.length)], List.pairwise_singleton _ _, fun s => ?_, ?_⟩
      · rw [List.mem_singleton, isRun_of_not_mem ha, and_iff_right hne, Prod.ext_iff]
      · simp [filledPieces_of_not_mem ha hne]
  induction cs using cut_induction sep with
  | plain a ha => exact hplain a ha
  | cut a b ha ih =>
    rw [filledPieces_append_cons]
    exact runs_append_cons (hplain a ha) ih

/-- There is one list of all runs. -/
theorem Runs.unique {cs : List Char} {ws vs : List (List Char)} (hw : Runs sep cs ws)
    (hv : Runs sep cs vs) : ws = vs := by
  obtain ⟨spans, hsorted, hspans, rfl⟩ := hw
  obtain ⟨spans', hsorted', hspans', rfl⟩ := hv
  have hmem : ∀ s, s ∈ spans ↔ s ∈ spans' := fun s => (hspans s).trans (hspans' s).symm
  have : Std.Antisymm fun s t : Nat × Nat => s.1 < t.1 :=
    ⟨fun s t hst hts => absurd hst (Nat.lt_asymm hts)⟩
  have : Std.Irrefl fun s t : Nat × Nat => s.1 < t.1 := ⟨fun s => Nat.lt_irrefl s.1⟩
  rw [hsorted.eq_of_mem_iff hsorted' hmem]

theorem runs_iff {ws : List (List Char)} {cs : List Char} :
    Runs sep cs ws ↔ ws = filledPieces sep cs :=
  ⟨fun h => h.unique (runs_filledPieces cs), fun h => h ▸ runs_filledPieces cs⟩

/-! ## What does not cut -/

/-- What holds no separator stands to one side of it. -/
theorem infix_of_infix_append_cons {w a b : List Char} (hw : sep ∉ w)
    (h : w <:+: a ++ sep :: b) : w <:+: a ∨ w <:+: b := by
  have hstart : ∀ v, sep ∉ v → v <+: sep :: b → v = [] := by
    intro v hv hp
    rcases List.prefix_cons_iff.1 hp with rfl | ⟨t, rfl, -⟩
    · rfl
    · exact absurd List.mem_cons_self hv
  rcases List.infix_append_iff.1 h with h | h | ⟨u, v, rfl, hu, hv⟩
  · exact .inl h
  · rcases List.infix_cons_iff.1 h with h | h
    · rw [hstart w hw h]
      exact .inl (List.nil_infix)
    · exact .inr h
  · rw [hstart v (fun hmem => hw (List.mem_append_right u hmem)) hv, List.append_nil]
    exact .inl hu.isInfix

/-- What holds no separator is not cut. -/
theorem exists_filledPieces_of_infix {w cs : List Char} (hne : w ≠ []) (hw : sep ∉ w)
    (h : w <:+: cs) : ∃ p ∈ filledPieces sep cs, w <:+: p := by
  induction cs using cut_induction sep with
  | plain a ha =>
    have hfilled : a ≠ [] := by
      rintro rfl
      exact hne (List.infix_nil.1 h)
    exact ⟨a, by simp [filledPieces_of_not_mem ha hfilled], h⟩
  | cut a b ha ih =>
    rw [filledPieces_append_cons]
    rcases infix_of_infix_append_cons hw h with h | h
    · have hfilled : a ≠ [] := by
        rintro rfl
        exact hne (List.infix_nil.1 h)
      exact ⟨a, by simp [filledPieces_of_not_mem ha hfilled], h⟩
    · obtain ⟨p, hp, hinfix⟩ := ih h
      exact ⟨p, List.mem_append_right _ hp, hinfix⟩

end CommandSchema.Text
