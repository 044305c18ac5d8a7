import CommandSchema.Proofs.CommandLine.Reading
import CommandSchema.Proofs.Files.Tree

/-!
# What tasks do to a tree

Only the task that writes the generated files changes a tree, and a task that fails shows nothing.

* `result_writeAll`: files are written up to the first that cannot be written.
* `result_perform_write`: the generated files are written, and their paths are shown after that.
* `Task.Fails`, `onlyShows_perform`: how the other tasks end, which leave the tree as it was.
-/

namespace CommandSchema.CommandLine

/-! ## Writing -/

/-- Files below a directory. -/
def below (root : String) (files : List (String × String)) : List (String × String) :=
  files.map fun f => (Path.join root f.1, f.2)

@[simp] theorem length_below (root : String) (files : List (String × String)) :
    (below root files).length = files.length := List.length_map ..

/-- Files are written one after the other. Where one cannot be written, those after it are not. -/
theorem result_writeAll (root : String) (files : List (String × String)) (s : Session) :
    result (writeAll onTree root files) s =
      (if (s.tree.writeFiles (below root files)).1 = files.length
        then .ok ((below root files).map (·.1)) else .error .file,
      { s with tree := (s.tree.writeFiles (below root files)).2 }) := by
  induction files generalizing s with
  | nil => rfl
  | cons f files ih =>
    have hwrite := result_write (Path.join root f.1) f.2 s
    have hbelow : below root (f :: files) = (Path.join root f.1, f.2) :: below root files := rfl
    rw [hbelow]
    rcases hw : s.tree.write (Path.join root f.1) f.2 with ⟨_ | _, u⟩
    · rw [hw] at hwrite
      rw [Tree.writeFiles_cons_of_false (f := (Path.join root f.1, f.2)) hw]
      exact result_bind_of_ok hwrite
    · rw [hw] at hwrite
      rw [Tree.writeFiles_cons_of_true (f := (Path.join root f.1, f.2)) hw]
      refine (result_bind_of_ok hwrite).trans ?_
      have hrest := ih { s with tree := u }
      simp only [List.length_cons, Nat.add_right_cancel_iff]
      split at hrest
      · next hall =>
        rw [if_pos hall]
        exact result_bind_of_ok hrest
      · next hall =>
        rw [if_neg hall]
        exact result_bind_of_error hrest

/-- Texts on lines of their own. -/
def shownLines (lines : List String) : String := String.join (lines.map (· ++ "\n"))

theorem result_forM_print (lines : List String) (s : Session) :
    result (lines.forM fun line => onTree.print line) s =
      (.ok (), { s with shown := s.shown ++ shownLines lines }) := by
  rw [List.forM_eq_forM]
  induction lines generalizing s with
  | nil => simp [shownLines]
  | cons line lines ih =>
    rw [List.forM_cons, result_bind_of_ok (result_print line s), ih]
    simp [shownLines, String.append_assoc]

/-- The paths of the generated files are shown once all of them have been written. -/
theorem result_perform_write (output : String) (config : Config) (artifacts : Artifacts)
    (s : Session) :
    result (perform onTree (.write output config artifacts)) s =
      let files := below output (artifacts.files config)
      if (s.tree.writeFiles files).1 = files.length then
        (.ok (), { tree := (s.tree.writeFiles files).2,
                   shown := s.shown ++ shownLines (files.map (·.1)) })
      else (.error .file, { s with tree := (s.tree.writeFiles files).2 }) := by
  have hall := result_writeAll output (artifacts.files config) s
  rw [perform]
  dsimp only
  rw [length_below]
  split at hall
  · next h => rw [result_bind_of_ok hall, if_pos h, result_forM_print]
  · next h => rw [result_bind_of_error hall, if_neg h]

/-! ## Showing -/

/-- The failures that a task may have. -/
def Task.Fails : Task → Failure → Prop
  | .write .., cause => cause = .file
  | .count .., _ | .dump .., _ => False
  | .parse .., cause => ∃ e, cause = .argv e
  | .bind .., cause => cause = .json ∨ ∃ e, cause = .call e

/-- A task that only shows something leaves the tree as it was, and a failure shows nothing. -/
inductive OnlyShows (fails : Failure → Prop) (s : Session) : Except Failure Unit × Session → Prop
  | shown (text : String) : OnlyShows fails s (.ok (), { s with shown := s.shown ++ text })
  | failed {cause : Failure} (h : fails cause) : OnlyShows fails s (.error cause, s)

section

variable {fails : Failure → Prop} {s : Session} {r : Except Failure Unit × Session}

theorem OnlyShows.tree (h : OnlyShows fails s r) : r.2.tree = s.tree := by
  cases h <;> rfl

theorem OnlyShows.shown_of_error (h : OnlyShows fails s r) {cause : Failure}
    (hr : r.1 = .error cause) : r.2.shown = s.shown := by
  cases h with
  | shown text => cases hr
  | failed hf => rfl

theorem OnlyShows.fails_of_error (h : OnlyShows fails s r) {cause : Failure}
    (hr : r.1 = .error cause) : fails cause := by
  cases h with
  | shown text => cases hr
  | failed hf =>
    obtain rfl := Except.error.inj hr
    exact hf

end

theorem onlyShows_showInvocation {ε : Type} {failure : ε → Failure} {fails : Failure → Prop}
    (h : ∀ e, fails (failure e)) (r : Except ε Invocation) (s : Session) :
    OnlyShows fails s (result (showInvocation onTree failure r) s) := by
  cases r with
  | ok invocation => exact .shown (invocation.toJson.pretty ++ "\n")
  | error e => exact .failed (h e)

/-- The task writes files. -/
def Task.writes : Task → Bool
  | .write .. => true
  | .count .. | .dump .. | .parse .. | .bind .. => false

theorem onlyShows_perform {task : Task} (h : task.writes = false) (s : Session) :
    OnlyShows task.Fails s (result (perform onTree task) s) := by
  cases task with
  | write output config artifacts => cases h
  | count path schema | dump schema => exact .shown _
  | parse schema argv => exact onlyShows_showInvocation (fun e => ⟨e, rfl⟩) _ s
  | bind schema exportName json =>
    rw [perform]
    split
    · exact .failed (.inl rfl)
    · exact onlyShows_showInvocation (fun e => .inr ⟨e, rfl⟩) _ s

end CommandSchema.CommandLine
