import CommandSchema.Text.Pieces
import Mathlib.Data.List.Basic

/-!
# Cutting and joining

Cutting a text at a separator undoes joining pieces that do not hold it.

* `pieces_append_cons`, `filledPieces_append_cons`: a text is cut to both sides of a separator on
  its own.
* `exists_pieces_append`: where two texts are joined, a piece of the one goes on in the other.
* `pieces_flatMap_end`: the pieces of a text in which every piece is ended by the separator.
* `mem_pieces`: what a piece is made of.
-/

namespace CommandSchema.Text

variable {sep : Char}

theorem pieces_cons_self (cs : List Char) : pieces sep (sep :: cs) = [] :: pieces sep cs := by
  rw [pieces, if_pos rfl]

/-- A character that is no separator goes to the first piece. -/
theorem pieces_cons_of_ne {c : Char} (h : c ≠ sep) (cs : List Char) :
    ∃ p ps, pieces sep cs = p :: ps ∧ pieces sep (c :: cs) = (c :: p) :: ps := by
  cases hp : pieces sep cs with
  | nil => exact absurd hp (pieces_ne_nil sep cs)
  | cons p ps => exact ⟨p, ps, rfl, by rw [pieces, if_neg h, hp]⟩

theorem pieces_append_cons (a b : List Char) :
    pieces sep (a ++ sep :: b) = pieces sep a ++ pieces sep b := by
  induction a with
  | nil => rw [List.nil_append, pieces_cons_self]; rfl
  | cons c a ih =>
    by_cases h : c = sep
    · subst h
      rw [List.cons_append, pieces_cons_self, pieces_cons_self, ih, List.cons_append]
    · obtain ⟨p, ps, hp, hc⟩ := pieces_cons_of_ne h a
      rw [hp, List.cons_append] at ih
      rw [List.cons_append, hc, pieces, if_neg h, ih, List.cons_append]

theorem pieces_of_not_mem {a : List Char} (h : sep ∉ a) : pieces sep a = [a] := by
  induction a with
  | nil => rfl
  | cons c a ih =>
    rw [List.mem_cons, not_or] at h
    rw [pieces, if_neg (Ne.symm h.1), ih h.2]

/-- What holds no separator goes to the first piece of what follows it. -/
theorem pieces_append_of_not_mem {a b y : List Char} {back : List (List Char)} (ha : sep ∉ a)
    (hb : pieces sep b = y :: back) : pieces sep (a ++ b) = (a ++ y) :: back := by
  induction a with
  | nil => exact hb
  | cons c a ih =>
    rw [List.mem_cons, not_or] at ha
    rw [List.cons_append, pieces, if_neg (Ne.symm ha.1), ih ha.2, List.cons_append]

/-- What follows a text goes on with its last piece. -/
theorem exists_pieces_append (a : List Char) {b y : List Char} {back : List (List Char)}
    (hb : pieces sep b = y :: back) : ∃ front x, pieces sep a = front ++ [x] ∧
      pieces sep (a ++ b) = front ++ (x ++ y) :: back := by
  induction a with
  | nil => exact ⟨[], [], rfl, hb⟩
  | cons c a ih =>
    obtain ⟨front, x, ha, hab⟩ := ih
    by_cases hc : c = sep
    · subst hc
      refine ⟨[] :: front, x, ?_, ?_⟩
      · rw [pieces_cons_self, ha, List.cons_append]
      · rw [List.cons_append, pieces_cons_self, hab, List.cons_append]
    · rw [List.cons_append, pieces, pieces, if_neg hc, if_neg hc, ha, hab]
      cases front with
      | nil => exact ⟨[], c :: x, rfl, rfl⟩
      | cons p front => exact ⟨(c :: p) :: front, x, rfl, rfl⟩

/-- A piece is made of characters of the text, and the separator is not among them. -/
theorem mem_pieces {cs p : List Char} (h : p ∈ pieces sep cs) : ∀ c ∈ p, c ∈ cs ∧ c ≠ sep := by
  induction cs generalizing p with
  | nil =>
    obtain rfl : p = [] := by simpa [pieces] using h
    simp
  | cons d cs ih =>
    by_cases hd : d = sep
    · subst hd
      rw [pieces_cons_self] at h
      obtain rfl | h := List.mem_cons.1 h
      · simp
      · exact fun c hc => ⟨List.mem_cons_of_mem _ (ih h c hc).1, (ih h c hc).2⟩
    · obtain ⟨q, qs, hq, hc⟩ := pieces_cons_of_ne hd cs
      rw [hc] at h
      rw [hq] at ih
      obtain rfl | h := List.mem_cons.1 h
      · intro c hc
        obtain rfl | hc := List.mem_cons.1 hc
        · exact ⟨List.mem_cons_self, hd⟩
        · have := ih List.mem_cons_self c hc
          exact ⟨List.mem_cons_of_mem _ this.1, this.2⟩
      · intro c hc
        have := ih (List.mem_cons_of_mem _ h) c hc
        exact ⟨List.mem_cons_of_mem _ this.1, this.2⟩

/-- Every piece is ended by the separator, so an empty one is left at the end. -/
theorem pieces_flatMap_end {ps : List (List Char)} (h : ∀ p ∈ ps, sep ∉ p) :
    pieces sep (ps.flatMap fun p => p ++ [sep]) = ps ++ [[]] := by
  induction ps with
  | nil => rfl
  | cons p ps ih =>
    rw [List.flatMap_cons, List.append_assoc, List.singleton_append, pieces_append_cons,
      pieces_of_not_mem (h p List.mem_cons_self), ih fun q hq => h q (List.mem_cons_of_mem _ hq)]
    rfl

theorem filledPieces_nil : filledPieces sep [] = [] := rfl

theorem filledPieces_of_not_mem {a : List Char} (h : sep ∉ a) (hne : a ≠ []) :
    filledPieces sep a = [a] := by
  rw [filledPieces, pieces_of_not_mem h]
  simpa using hne

theorem filledPieces_append_cons (a b : List Char) :
    filledPieces sep (a ++ sep :: b) = filledPieces sep a ++ filledPieces sep b := by
  rw [filledPieces, pieces_append_cons, List.filter_append]
  rfl

theorem filledPieces_cons (cs : List Char) : filledPieces sep (sep :: cs) = filledPieces sep cs :=
  filledPieces_append_cons [] cs

end CommandSchema.Text
