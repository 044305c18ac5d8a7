import CommandSchema.Proofs.Generated.Reading
import CommandSchema.Proofs.Layout.View
import CommandSchema.Proofs.Text.Lines

/-!
# The lines of structured code, one after the other

Structured code is laid out as a list of lines, whatever block they stand in.

* `Code.marks`: what the lines of code say, in their order.
* `Code.marks_map`: with other instructions, they say the others.
* `Code.AllMarks.forall_mem`: what holds of every line in a tree of code holds of every line in the
  list.
* `shows_function`: a reader that does not look at indentation takes from a function what it takes
  from those lines.
-/

namespace CommandSchema.Generated

open Layout Text

variable {I H T : Type} (G : Grammar I H T)

mutual

/-- What the lines of code say. -/
def Code.marks : Code I H T → List (Mark I H T)
  | .done => []
  | .run i next => .instruction i :: next.marks
  | .block h body next => .opening h :: body.marks ++ .closing :: next.marks
  | .choose arms next => arms.marks true ++ next.marks

/-- What the lines of arms say. -/
def Arms.marks (isFirst : Bool) : Arms I H T → List (Mark I H T)
  | .otherwise body => .otherwise :: body.marks ++ [.closing]
  | .arm test body rest =>
    (if isFirst then .opening (G.when test) else .arm test) :: body.marks ++ rest.marks false

end

variable {G} {w : Writing I H T} {P : Mark I H T → Prop}

mutual

theorem Code.AllMarks.forall_mem (ho : P .otherwise) (hc : P .closing) :
    {c : Code I H T} → c.AllMarks G P → ∀ m ∈ c.marks G, P m
  | .done, _ => List.forall_mem_nil _
  | .run _ _, ⟨hi, hn⟩ => List.forall_mem_cons.2 ⟨hi, hn.forall_mem ho hc⟩
  | .block _ _ _, ⟨hh, hb, hn⟩ =>
    List.forall_mem_cons.2 ⟨hh, List.forall_mem_append.2
      ⟨hb.forall_mem ho hc, List.forall_mem_cons.2 ⟨hc, hn.forall_mem ho hc⟩⟩⟩
  | .choose _ _, ⟨ha, hn⟩ => List.forall_mem_append.2 ⟨ha.forall_mem ho hc, hn.forall_mem ho hc⟩

theorem Arms.AllMarks.forall_mem (ho : P .otherwise) (hc : P .closing) {isFirst : Bool} :
    {arms : Arms I H T} → arms.AllMarks G P isFirst → ∀ m ∈ arms.marks G isFirst, P m
  | .otherwise _, ⟨_, hb⟩ =>
    List.forall_mem_cons.2 ⟨ho, List.forall_mem_append.2
      ⟨hb.forall_mem ho hc, List.forall_mem_singleton.2 hc⟩⟩
  | .arm _ _ _, ⟨ht, hb, hr⟩ =>
    List.forall_mem_cons.2 ⟨ht, List.forall_mem_append.2
      ⟨hb.forall_mem ho hc, hr.forall_mem ho hc⟩⟩

end

variable {g : I → I}

mutual

/-- With other instructions, the lines of code say the others. -/
theorem Code.marks_map : (c : Code I H T) → (c.map g).marks G = (c.marks G).map (Mark.map g)
  | .done => rfl
  | .run i next => by
    have hnext := next.marks_map
    simp [Code.map, Code.marks, Mark.map, hnext]
  | .block h body next => by
    have hbody := body.marks_map
    have hnext := next.marks_map
    simp [Code.map, Code.marks, Mark.map, hbody, hnext]
  | .choose arms next => by
    have harms := arms.marks_map true
    have hnext := next.marks_map
    simp [Code.map, Code.marks, harms, hnext]

theorem Arms.marks_map (isFirst : Bool) : (arms : Arms I H T) →
    (arms.map g).marks G isFirst = (arms.marks G isFirst).map (Mark.map g)
  | .otherwise body => by
    have hbody := body.marks_map
    simp [Arms.map, Arms.marks, Mark.map, hbody]
  | .arm test body rest => by
    have hbody := body.marks_map
    have hrest := rest.marks_map false
    cases isFirst with
    | true => simp [Arms.map, Arms.marks, Mark.map, hbody, hrest]
    | false => simp [Arms.map, Arms.marks, Mark.map, hbody, hrest]

end

/-! ## Lines without their indentation -/

theorem dropIndent_lineAt (level : Nat) (text : String) :
    dropIndent (lineAt level text) = dropIndent text.toList := dropIndent_replicate ..

mutual

/-- Without its indentation, a line is what it says. -/
theorem Code.map_dropIndent_layout (level : Nat) : (c : Code I H T) →
    (c.layout w G level).map dropIndent =
      (c.marks G).map fun m => dropIndent (m.text w).toList
  | .done => rfl
  | .run i next => by
    have hnext := next.map_dropIndent_layout level
    simp [Code.layout, Code.marks, Mark.text, dropIndent_lineAt, hnext]
  | .block h body next => by
    have hbody := body.map_dropIndent_layout (level + 1)
    have hnext := next.map_dropIndent_layout level
    simp [Code.layout, Code.marks, Mark.text, dropIndent_lineAt, hbody, hnext]
  | .choose arms next => by
    have harms := arms.map_dropIndent_layout level true
    have hnext := next.map_dropIndent_layout level
    simp [Code.layout, Code.marks, harms, hnext]

theorem Arms.map_dropIndent_layout (level : Nat) (isFirst : Bool) : (arms : Arms I H T) →
    (arms.layout w G level isFirst).map dropIndent =
      (arms.marks G isFirst).map fun m => dropIndent (m.text w).toList
  | .otherwise body => by
    have hbody := body.map_dropIndent_layout (level + 1)
    simp [Arms.layout, Arms.marks, Mark.text, dropIndent_lineAt, hbody]
  | .arm test body rest => by
    have hbody := body.map_dropIndent_layout (level + 1)
    have hrest := rest.map_dropIndent_layout level false
    cases isFirst with
    | true => simp [Arms.layout, Arms.marks, Mark.text, dropIndent_lineAt, hbody, hrest]
    | false => simp [Arms.layout, Arms.marks, Mark.text, dropIndent_lineAt, hbody, hrest]

end

/-! ## Functions -/

/-- A reader that does not look at indentation takes from a function what it takes from the lines of
its code, if it passes over the other lines. -/
theorem shows_function {α : Type} {read? : List Char → Option α}
    {hempty : read? (dropIndent []) = none} {signature result : String}
    (hsignature : FillsLine signature) (hresult : FillsLine result)
    (hhead : signature.toList.head? ≠ some ' ') (hs : read? (dropIndent signature.toList) = none)
    (hr : read? (dropIndent result.toList) = none) (hclosing : read? ['\x7d'] = none)
    {code : Code I H T} (hcode : code.AllMarks G fun m => FillsLine (m.text w))
    (hwhen : ∀ t, w.head (G.when t) = "if (" ++ w.test t ++ ") \x7b") :
    Shows (.ofLines (fun l => read? (dropIndent l)) hempty)
      (function signature result (code.steps w))
      ((code.marks G).filterMap fun m => read? (dropIndent (m.text w).toList)) := by
  obtain ⟨hlayout, hinside⟩ := code.linesFrom_steps (fun _ h => h) hwhen 1 hcode
  obtain ⟨hlines, hlevel⟩ := lines_function hsignature hresult hinside
  have hbody : (code.layout w G 1).filterMap (fun l => read? (dropIndent l)) =
      (code.marks G).filterMap fun m => read? (dropIndent (m.text w).toList) := by
    have hmap := congrArg (List.filterMap read?) (code.map_dropIndent_layout (w := w) (G := G) 1)
    rwa [List.filterMap_map, List.filterMap_map] at hmap
  refine ⟨hlevel, ?_, ?_⟩
  · rw [hlines]
    exact outside_cons hhead _
  · rw [hlines, hlayout]
    show List.filterMap (fun l => read? (dropIndent l)) _ = _
    have hend : [['\x7d']].filterMap (fun l => read? (dropIndent l)) = [] :=
      List.filterMap_cons_none hclosing
    rw [List.filterMap_cons, hs, List.filterMap_cons, hr, List.filterMap_append, hbody, hend,
      List.append_nil]

/-! ## Chains -/

theorem Code.marks_runAll (is : List I) (next : Code I H T) :
    (Code.runAll is next).marks G = is.map .instruction ++ next.marks G := by
  induction is with
  | nil => rfl
  | cons i is ih => exact congrArg (Mark.instruction i :: ·) ih

/-- What is taken from the lines of a chain is one entry for each arm, if every test gives one
wherever it stands, and after it what is taken from the lines of the arm. -/
theorem Arms.flatMap_marks_ofList {α β : Type} {take? : Mark I H T → Option α} {test : β → T}
    {body : β → Code I H T} {entry : β → α} {inner : β → List α} {otherwise : Code I H T}
    {items : List β}
    (hfirst : ∀ b ∈ items, take? (.opening (G.when (test b))) = some (entry b))
    (harm : ∀ b ∈ items, take? (.arm (test b)) = some (entry b))
    (hbody : ∀ b ∈ items, ((body b).marks G).filterMap take? = inner b)
    (hlast : ∀ m ∈ (Arms.otherwise otherwise).marks G false, take? m = none) (isFirst : Bool) :
    ((Arms.ofList (items.map fun b => (test b, body b)) otherwise).marks G isFirst).filterMap
      take? = items.flatMap fun b => entry b :: inner b := by
  induction items generalizing isFirst with
  | nil => exact List.filterMap_eq_nil_iff.2 hlast
  | cons b items ih =>
    obtain ⟨hf, hfirst⟩ := List.forall_mem_cons.1 hfirst
    obtain ⟨ha, harm⟩ := List.forall_mem_cons.1 harm
    obtain ⟨hb, hbody⟩ := List.forall_mem_cons.1 hbody
    have htest : take? (if isFirst then .opening (G.when (test b)) else .arm (test b)) =
        some (entry b) := by
      cases isFirst with
      | true => exact hf
      | false => exact ha
    have hrest := ih hfirst harm hbody false
    rw [Arms.ofList] at hrest
    rw [Arms.ofList, List.map_cons, List.foldr_cons, Arms.marks, List.cons_append,
      List.filterMap_cons_some htest, List.filterMap_append, hb, hrest, List.flatMap_cons,
      List.cons_append]

end CommandSchema.Generated
