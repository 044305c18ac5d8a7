import CommandSchema.Proofs.CommandLine.Tasks

/-!
# All actions judge a schema alike

Whether a schema can be used under a configuration does not depend on what is to be done with it,
and neither does the failure if it cannot, with one exception: where neither the schema's text nor
the configuration can be had, generating blames the configuration and all others blame the text.

* `BlamesAlike`: the failure of generating beside that of the others.
* `GetsTo`: a run has reached what its action does with a schema.
* `judge_alike`: the verdicts of the five actions.
-/

namespace CommandSchema.CommandLine

variable {t : Tree} {inputs : Inputs} {args : List String} {request : Request} {cause : Failure}

/-! ## Statement -/

/-- The failure of a run that generates, `generating`, beside that of a run that does not. -/
structure BlamesAlike (t : Tree) (inputs : Inputs) (cause generating : Failure) : Prop where
  /-- Both the schema's text and the configuration cannot be had. -/
  ofBoth : ∀ missing faulty, textOf t inputs.schema = .error missing →
    configOf t inputs.config = .error faulty → cause = missing ∧ generating = faulty
  /-- At least one of them can. -/
  ofOne : (∃ text, textOf t inputs.schema = .ok text) ∨
    (∃ config, configOf t inputs.config = .ok config) → generating = cause

/-- A run has reached a task with these failures: it has done it or failed with one of them. -/
def GetsTo (fails : Failure → Prop) (outcome : Outcome Unit) : Prop :=
  outcome = .success () ∨ ∃ cause, outcome = .failure cause ∧ fails cause

/-- A failure of an argument vector. -/
def Failure.IsOfArgv (cause : Failure) : Prop := ∃ e, cause = .argv e

/-- A failure of options in JSON. -/
def Failure.IsOfOptions (cause : Failure) : Prop := cause = .json ∨ ∃ e, cause = .call e

/-- A failure that reading a schema and a configuration may have. -/
inductive Failure.IsOfReading : Failure → Prop
  | file : IsOfReading .file
  | config : IsOfReading .config
  | load (e : LoadError) : IsOfReading (.load e)

/-! ## Reading -/

theorem isOfReading_of_configOf {path : Option String} (h : configOf t path = .error cause) :
    cause.IsOfReading := by
  cases path with
  | none => cases h
  | some path =>
    cases hr : t.read path with
    | text text =>
      rw [configOf_of_read hr] at h
      cases hc : Config.read? text with
      | none =>
        rw [hc] at h
        obtain rfl := Except.error.inj h
        exact .config
      | some config => rw [hc] at h; cases h
    | notOpened | notRead =>
      unfold configOf readConfig at h
      rw [result_bind_of_ok (result_read path _), hr] at h
      obtain rfl := Except.error.inj h
      constructor

theorem isOfReading_of_schemaOf (h : schemaOf t inputs = .error cause) : cause.IsOfReading := by
  rw [schemaOf_eq] at h
  obtain h | ⟨text, -, h⟩ := bind_eq_error_iff.1 h
  · exact eq_file_of_textOf h ▸ .file
  · obtain h | ⟨config, -, h⟩ := bind_eq_error_iff.1 h
    · exact isOfReading_of_configOf h
    · obtain ⟨e, -, rfl⟩ := mapError_eq_error_iff.1 h
      exact .load e

/-- What is generated from a schema that can be used. -/
theorem compiled_of_schemaOf_ok {schema : Schema} (h : schemaOf t inputs = .ok schema) :
    ∃ config, compiled t inputs = .ok (config, Artifacts.ofSchema schema config) := by
  obtain ⟨text, config, ht, hc, hs⟩ := schemaOf_eq_ok_iff.1 h
  exact ⟨config, compiled_eq_ok_iff.2 ⟨text, schema, ht, hc, hs, rfl⟩⟩

theorem not_one_of_both {missing faulty : Failure} (ht : textOf t inputs.schema = .error missing)
    (hc : configOf t inputs.config = .error faulty) :
    ¬((∃ text, textOf t inputs.schema = .ok text) ∨
      ∃ config, configOf t inputs.config = .ok config) := by
  simp [ht, hc]

/-- If the text or the configuration can be had, the same failure is blamed. -/
theorem BlamesAlike.of_one (h : (∃ text, textOf t inputs.schema = .ok text) ∨
    ∃ config, configOf t inputs.config = .ok config) (cause : Failure) :
    BlamesAlike t inputs cause cause where
  ofBoth _ _ ht hc := absurd h (not_one_of_both ht hc)
  ofOne _ := rfl

theorem BlamesAlike.of_both {missing faulty : Failure}
    (ht : textOf t inputs.schema = .error missing) (hc : configOf t inputs.config = .error faulty) :
    BlamesAlike t inputs missing faulty where
  ofBoth _ _ ht' hc' := ⟨Except.error.inj (ht.symm.trans ht'), Except.error.inj (hc.symm.trans hc')⟩
  ofOne h := absurd h (not_one_of_both ht hc)

/-- Nothing is generated from a schema that cannot be used. -/
theorem compiled_of_schemaOf_error (h : schemaOf t inputs = .error cause) :
    ∃ generating, compiled t inputs = .error generating ∧
      BlamesAlike t inputs cause generating := by
  rw [schemaOf_eq] at h
  rw [compiled_eq]
  -- the text is read first for a schema, the configuration for what is generated from it
  cases ht : textOf t inputs.schema with
  | error missing =>
    rw [ht] at h
    obtain rfl := Except.error.inj h
    cases hc : configOf t inputs.config with
    | error faulty => exact ⟨faulty, rfl, .of_both ht hc⟩
    | ok config => exact ⟨missing, rfl, .of_one (.inr ⟨config, hc⟩) missing⟩
  | ok text =>
    rw [ht] at h
    have hone := BlamesAlike.of_one (.inl ⟨text, ht⟩) cause
    cases hc : configOf t inputs.config with
    | error faulty =>
      rw [hc] at h
      obtain rfl := Except.error.inj h
      exact ⟨faulty, rfl, hone⟩
    | ok config =>
      rw [hc] at h
      obtain ⟨e, he, rfl⟩ := mapError_eq_error_iff.1 h
      refine ⟨.load e, ?_, hone⟩
      show ((Schema.load text config).mapError Failure.load >>= fun schema =>
        pure (config, Artifacts.ofSchema schema config)) = _
      rw [he]
      rfl

/-! ## Runs -/

/-- A run that needs the schema alone, if there is none. -/
theorem runOn_of_schemaOf_error (h : Request.ofArgs? args = some request) {task : Schema → Task}
    (ht : taskOf t request = (schemaOf t inputs).map task)
    (hs : schemaOf t inputs = .error cause) : (runOn t args).1 = .failure cause := by
  rw [hs] at ht
  rw [runOn_of_taskOf_error h ht]

/-- Such a run, if there is a schema, gets to its task. -/
theorem getsTo_of_schemaOf_ok (h : Request.ofArgs? args = some request) {task : Schema → Task}
    (ht : taskOf t request = (schemaOf t inputs).map task) {schema : Schema}
    (hs : schemaOf t inputs = .ok schema) (hw : (task schema).writes = false) :
    GetsTo (task schema).Fails (runOn t args).1 := by
  rw [hs] at ht
  rw [runOn_of_taskOf_ok h ht]
  have hshows := onlyShows_perform hw { tree := t }
  cases hr : (result (perform onTree (task schema)) { tree := t }).1 with
  | ok _ => exact .inl rfl
  | error cause => exact .inr ⟨cause, rfl, hshows.fails_of_error hr⟩

/-- A run that has reached a task which cannot fail has done it. -/
theorem GetsTo.eq_success_of_false {outcome : Outcome Unit} (h : GetsTo (fun _ => False) outcome) :
    outcome = .success () := by
  obtain h | ⟨_, -, hf⟩ := h
  · exact h
  · exact hf.elim

theorem not_getsTo {fails : Failure → Prop} (h : ¬ fails cause) :
    ¬ GetsTo fails (.failure cause) := by
  rintro (h' | ⟨_, h', hf⟩)
  · cases h'
  · cases h'
    exact h hf

/-- All actions judge a schema alike. -/
theorem judge_alike (t : Tree) (inputs : Inputs) {checking dumping generating parsing binding :
      List String} {output exportName json : String} {argv : List String}
    (hcheck : Request.ofArgs? checking = some (.check inputs))
    (hdump : Request.ofArgs? dumping = some (.dump inputs))
    (hgenerate : Request.ofArgs? generating = some (.generate inputs output))
    (hparse : Request.ofArgs? parsing = some (.parse inputs argv))
    (hbind : Request.ofArgs? binding = some (.bind inputs exportName json)) :
    (runOn t checking).1.status = (runOn t dumping).1.status ∧
    ((runOn t checking).1.status = 0 ↔ ∃ found, compiled t inputs = .ok found) ∧
    ((runOn t checking).1.status = 0 ↔ GetsTo Failure.IsOfArgv (runOn t parsing).1) ∧
    ((runOn t checking).1.status = 0 ↔ GetsTo Failure.IsOfOptions (runOn t binding).1) ∧
    ∀ cause, (runOn t checking).1 = .failure cause →
      (runOn t dumping).1 = .failure cause ∧ (runOn t parsing).1 = .failure cause ∧
      (runOn t binding).1 = .failure cause ∧
      ∃ cause', (runOn t generating).1 = .failure cause' ∧ BlamesAlike t inputs cause cause' := by
  cases hs : schemaOf t inputs with
  | ok schema =>
    have hc : (runOn t checking).1 = .success () :=
      (getsTo_of_schemaOf_ok hcheck taskOf_check hs rfl).eq_success_of_false
    have hd : (runOn t dumping).1 = .success () :=
      (getsTo_of_schemaOf_ok hdump taskOf_dump hs rfl).eq_success_of_false
    obtain ⟨config, hcompiled⟩ := compiled_of_schemaOf_ok hs
    rw [hc, hd]
    refine ⟨rfl, iff_of_true rfl ⟨_, hcompiled⟩,
      iff_of_true rfl (getsTo_of_schemaOf_ok hparse (taskOf_parse argv) hs rfl),
      iff_of_true rfl (getsTo_of_schemaOf_ok hbind (taskOf_bind exportName json) hs rfl), ?_⟩
    rintro cause ⟨⟩
  | error cause =>
    have hreading := isOfReading_of_schemaOf hs
    have hp := runOn_of_schemaOf_error hparse (taskOf_parse argv) hs
    have hb := runOn_of_schemaOf_error hbind (taskOf_bind exportName json) hs
    obtain ⟨cause', hcompiled, hblames⟩ := compiled_of_schemaOf_error hs
    have hg : taskOf t (.generate inputs output) = .error cause' := by
      rw [taskOf_generate, hcompiled]
      rfl
    rw [runOn_of_schemaOf_error hcheck taskOf_check hs,
      runOn_of_schemaOf_error hdump taskOf_dump hs,
      hp, hb, runOn_of_taskOf_error hgenerate hg, hcompiled]
    refine ⟨rfl, iff_of_false status_failure_ne_zero (by simp),
      iff_of_false status_failure_ne_zero (not_getsTo ?_),
      iff_of_false status_failure_ne_zero (not_getsTo ?_), ?_⟩
    · rintro ⟨e, rfl⟩
      cases hreading
    · rintro (rfl | ⟨e, rfl⟩) <;> cases hreading
    · rintro _ ⟨⟩
      exact ⟨rfl, rfl, rfl, cause', rfl, hblames⟩

/-- The text of the schema is missing and the configuration is no YAML. -/
theorem judge_alike_missing_faulty :
    let t := Tree.ofFiles [("c.yml", "files: [")]
    (runOn t ["check", "-i", "s.yml", "-c", "c.yml"]).1 = .failure .file ∧
    (runOn t ["dump", "-c=c.yml", "--input", "s.yml"]).1 = .failure .file ∧
    (runOn t ["-v", "parse", "-is.yml", "-cc.yml", "--", "exit"]).1 = .failure .file ∧
    (runOn t ["bind", "-i", "s.yml", "--command", "exit", "--json=1", "-c", "c.yml"]).1 =
      .failure .file ∧
    (runOn t ["generate", "-i", "s.yml", "-c", "c.yml", "-o", "out"]).1 = .failure .config := by
  intro t
  have hfile : (runOn t ["check", "-i", "s.yml", "-c", "c.yml"]).1 = .failure .file := by
    decide +kernel
  have htext : textOf t "s.yml" = .error .file := by decide +kernel
  have hconfig : configOf t (some "c.yml") = .error .config := by decide +kernel
  have hcheck : Request.ofArgs? ["check", "-i", "s.yml", "-c", "c.yml"] =
      some (.check ⟨"s.yml", some "c.yml"⟩) := by decide +kernel
  have hdump : Request.ofArgs? ["dump", "-c=c.yml", "--input", "s.yml"] =
      some (.dump ⟨"s.yml", some "c.yml"⟩) := by decide +kernel
  have hgenerate : Request.ofArgs? ["generate", "-i", "s.yml", "-c", "c.yml", "-o", "out"] =
      some (.generate ⟨"s.yml", some "c.yml"⟩ "out") := by decide +kernel
  have hparse : Request.ofArgs? ["-v", "parse", "-is.yml", "-cc.yml", "--", "exit"] =
      some (.parse ⟨"s.yml", some "c.yml"⟩ ["exit"]) := by decide +kernel
  have hbind : Request.ofArgs? ["bind", "-i", "s.yml", "--command", "exit", "--json=1", "-c",
      "c.yml"] = some (.bind ⟨"s.yml", some "c.yml"⟩ "exit" "1") := by decide +kernel
  obtain ⟨-, -, -, -, hfails⟩ :=
    judge_alike t ⟨"s.yml", some "c.yml"⟩ hcheck hdump hgenerate hparse hbind
  obtain ⟨hd, hp, hb, generating, hg, hblames⟩ := hfails .file hfile
  obtain ⟨-, rfl⟩ := hblames.ofBoth .file .config htext hconfig
  exact ⟨hfile, hd, hp, hb, hg⟩

end CommandSchema.CommandLine
