import CommandSchema.Proofs.CommandLine.Tasks

/-!
# What a run leaves

Only a run that generates writes anything, and it does so once all that it reads has been judged.
It writes its files in order up to the first that cannot be written. A run that fails shows nothing.

* `planned`: the files that a run is to write.
* `Writes`: a run has written the first of them.
* `effects_runOn`: what is left of every run.
-/

namespace CommandSchema.CommandLine

variable {t : Tree} {inputs : Inputs} {output : String} {args : List String}

/-! ## Statement -/

/-- The files that are to be generated from a schema that can be used, in their order. -/
def planned (t : Tree) (inputs : Inputs) (output : String) : List (String × String) :=
  match compiled t inputs with
  | .ok (config, artifacts) => below output (artifacts.files config)
  | .error _ => []

/-- A run that generates has written the first files of those that it was to write. -/
structure Writes (t : Tree) (inputs : Inputs) (output : String) (outcome : Outcome Unit)
    (after : Tree) (count : Nat) : Prop where
  /-- The files are those before, overwritten by the first that were to be written. -/
  files : after.file? = Tree.overwritten t.file? (t.located ((planned t inputs output).take count))
  le : count ≤ 5
  all : count = 5 ↔ outcome.status = 0
  /-- Nothing has been written if the run fails for another reason than a file. -/
  judged : ∀ cause, outcome = .failure cause → cause ≠ .file → count = 0
  /-- Nor if the schema cannot be used. -/
  unusable : ∀ cause, compiled t inputs = .error cause → outcome = .failure cause ∧ count = 0

/-- What is left of a run. -/
structure Effects (t : Tree) (args : List String) (ends : Outcome Unit × Session) : Prop where
  /-- A run that fails shows nothing. -/
  shown : ends.1.status = 1 → ends.2.shown = ""
  /-- A run that does not generate anything leaves everything as it was. -/
  unchanged : (∀ inputs output, Request.ofArgs? args ≠ some (.generate inputs output)) →
    ends.2.tree = t
  written : ∀ inputs output, Request.ofArgs? args = some (.generate inputs output) →
    ∃ count, Writes t inputs output ends.1 ends.2.tree count

/-! ## Runs that write -/

@[simp] theorem length_files (config : Config) (artifacts : Artifacts) :
    (artifacts.files config).length = 5 := rfl

theorem planned_of_compiled {config : Config} {artifacts : Artifacts}
    (h : compiled t inputs = .ok (config, artifacts)) :
    planned t inputs output = below output (artifacts.files config) := by
  rw [planned, h]

/-- Nothing is written if the schema cannot be used. -/
theorem writes_of_error {cause : Failure} (h : compiled t inputs = .error cause) :
    Writes t inputs output (.failure cause) t 0 where
  files := by rw [List.take_zero]; rfl
  le := Nat.zero_le 5
  all := iff_of_false (by decide) status_failure_ne_zero
  judged _ _ _ := rfl
  unusable cause' h' := by
    rw [h] at h'
    obtain rfl := Except.error.inj h'
    exact ⟨rfl, rfl⟩

/-- Files are written one after the other if the schema can be used. -/
theorem writes_of_ok {config : Config} {artifacts : Artifacts}
    (h : compiled t inputs = .ok (config, artifacts)) {outcome : Outcome Unit}
    (hall : (t.writeFiles (planned t inputs output)).1 = 5 ↔ outcome.status = 0)
    (hfile : ∀ cause, outcome = .failure cause → cause = .file) :
    Writes t inputs output outcome (t.writeFiles (planned t inputs output)).2
      (t.writeFiles (planned t inputs output)).1 where
  files := Tree.file?_writeFiles t _
  le := by
    have hle := t.writeFiles_le (planned t inputs output)
    rwa [planned_of_compiled h, length_below, length_files, ← planned_of_compiled h] at hle
  all := hall
  judged cause hc hne := absurd (hfile cause hc) hne
  unusable cause he := by rw [h] at he; cases he

/-! ## Runs -/

/-- What is left of a run that generates. -/
theorem effects_of_generate (h : Request.ofArgs? args = some (.generate inputs output))
    {ends : Outcome Unit × Session} (hs : ends.1.status = 1 → ends.2.shown = "") {count : Nat}
    (hw : Writes t inputs output ends.1 ends.2.tree count) : Effects t args ends where
  shown := hs
  unchanged hne := absurd h (hne inputs output)
  written inputs' output' h' := by
    rw [h] at h'
    obtain ⟨rfl, rfl⟩ := Request.generate.inj (Option.some.inj h')
    exact ⟨count, hw⟩

/-- Nothing is written before the schema has been judged, and nothing is shown before all files have
been written. -/
theorem effects_generate (h : Request.ofArgs? args = some (.generate inputs output)) :
    Effects t args (runOn t args) := by
  have htask : taskOf t (.generate inputs output) = _ := taskOf_generate output
  cases hc : compiled t inputs with
  | error cause =>
    rw [hc] at htask
    rw [runOn_of_taskOf_error h htask]
    exact effects_of_generate h (fun _ => rfl) (writes_of_error hc)
  | ok found =>
    obtain ⟨config, artifacts⟩ := found
    rw [hc] at htask
    rw [runOn_of_taskOf_ok h htask, result_perform_write, ← planned_of_compiled hc]
    have hlength : (planned t inputs output).length = 5 := by
      rw [planned_of_compiled hc, length_below, length_files]
    dsimp only
    rw [hlength]
    split
    · next hall =>
      exact effects_of_generate h (by rintro ⟨⟩)
        (writes_of_ok hc (iff_of_true hall rfl) (by rintro _ ⟨⟩))
    · next hall =>
      exact effects_of_generate h (fun _ => rfl)
        (writes_of_ok hc (iff_of_false hall status_failure_ne_zero) (by rintro _ ⟨⟩; rfl))

/-- A request that does not generate anything asks for a task that only shows something. -/
theorem writes_eq_false_of_taskOf {request : Request} {task : Task}
    (hne : ∀ inputs output, request ≠ .generate inputs output)
    (h : taskOf t request = .ok task) : task.writes = false := by
  have hread : ∀ {inputs} {toTask : Schema → Task}, (∀ schema, (toTask schema).writes = false) →
      (schemaOf t inputs).map toTask = .ok task → task.writes = false := by
    intro inputs toTask hfalse hmap
    obtain ⟨schema, -, rfl⟩ := map_eq_ok_iff.1 hmap
    exact hfalse schema
  cases request with
  | generate inputs output => exact absurd rfl (hne inputs output)
  | check inputs => exact hread (fun _ => rfl) (taskOf_check.symm.trans h)
  | dump inputs => exact hread (fun _ => rfl) (taskOf_dump.symm.trans h)
  | parse inputs argv => exact hread (fun _ => rfl) ((taskOf_parse argv).symm.trans h)
  | bind inputs exportName json =>
    exact hread (fun _ => rfl) ((taskOf_bind exportName json).symm.trans h)

/-- Other runs leave everything as it was and show nothing if they fail. -/
theorem unchanged_of_ne_generate
    (hne : ∀ inputs output, Request.ofArgs? args ≠ some (.generate inputs output)) :
    (runOn t args).2.tree = t ∧
      ((runOn t args).1.status = 1 → (runOn t args).2.shown = "") := by
  cases h : Request.ofArgs? args with
  | none => rw [runOn_of_none h]; exact ⟨rfl, fun _ => rfl⟩
  | some request =>
    cases ht : taskOf t request with
    | error cause => rw [runOn_of_taskOf_error h ht]; exact ⟨rfl, fun _ => rfl⟩
    | ok task =>
      have hwrites : task.writes = false :=
        writes_eq_false_of_taskOf (fun inputs output he => hne inputs output (he ▸ h)) ht
      rw [runOn_of_taskOf_ok h ht]
      have hshows := onlyShows_perform hwrites { tree := t }
      refine ⟨hshows.tree, fun hstatus => ?_⟩
      cases hr : (result (perform onTree task) { tree := t }).1 with
      | ok _ => rw [hr] at hstatus; cases hstatus
      | error cause => exact hshows.shown_of_error hr

/-- The second file cannot be written, since the first one stands where its directory would be. -/
example :
    let t := Tree.ofFiles [("s.yml", "exit: \x7b\x7d\n"),
      ("c.yml", "source_dir: f\nfiles: \x7bheader: x, run_header: x/y\x7d\n")]
    let ends := runOn t ["generate", "-i", "s.yml", "-c", "c.yml", "-o", "out"]
    ends.1 = .failure .file ∧ ends.2.tree.localFiles.map (·.1) = ["out/f/x", "c.yml", "s.yml"] := by
  decide +kernel

end CommandSchema.CommandLine
