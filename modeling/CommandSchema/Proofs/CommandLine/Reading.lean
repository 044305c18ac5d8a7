import CommandSchema.CommandLine.Run
import CommandSchema.Proofs.Except

/-!
# What a run on a tree reads

A run reads all files that its request names before it does anything, and reading changes nothing.
So what a run is to do is known from the tree that it finds.

* `result`: what comes of a part of a run, and the session after it.
* `configOf`, `textOf`, `schemaOf`, `compiled`, `taskOf`: what a run finds in a tree.
* `schemaOf_eq`, `compiled_eq`: the orders in which a schema and a configuration are read.
* `runOn_of_taskOf_error`, `runOn_of_taskOf_ok`: how a run goes on.
-/

namespace CommandSchema.CommandLine

variable {α β : Type}

/-! ## Parts of a run -/

/-- What comes of a part of a run, and the session after it. -/
def result (x : ExceptT Failure (StateM Session) α) (s : Session) : Except Failure α × Session :=
  x.run.run s

@[simp] theorem result_pure (a : α) (s : Session) : result (pure a) s = (.ok a, s) := rfl

@[simp] theorem result_throw (cause : Failure) (s : Session) :
    result (throw cause : ExceptT Failure (StateM Session) α) s = (.error cause, s) := rfl

section

variable {x : ExceptT Failure (StateM Session) α} {f : α → ExceptT Failure (StateM Session) β}
  {s s' : Session}

theorem result_bind_of_ok {a : α} (h : result x s = (.ok a, s')) :
    result (x >>= f) s = result (f a) s' := by
  have hx : StateT.run x.run s = pure (Except.ok a, s') := h
  unfold result
  rw [ExceptT.run_bind, StateT.run_bind, hx, pure_bind]

theorem result_bind_of_error {cause : Failure} (h : result x s = (.error cause, s')) :
    result (x >>= f) s = (.error cause, s') := by
  have hx : StateT.run x.run s = pure (Except.error cause, s') := h
  unfold result
  rw [ExceptT.run_bind, StateT.run_bind, hx, pure_bind]
  rfl

/-- Two parts that change nothing, one after the other. -/
theorem result_bind {r : Except Failure α} {g : α → Except Failure β} (hx : result x s = (r, s))
    (hf : ∀ a, result (f a) s = (g a, s)) : result (x >>= f) s = (r >>= g, s) := by
  cases r with
  | ok a => exact (result_bind_of_ok hx).trans (hf a)
  | error cause => exact result_bind_of_error hx

end

theorem result_modifyGet (f : Session → α × Session) (s : Session) :
    result (liftM (modifyGet f : StateM Session α)) s = (.ok (f s).1, (f s).2) := rfl

theorem result_read (path : String) (s : Session) :
    result (liftM (onTree.read path)) s = (.ok (s.tree.read path), s) := rfl

theorem result_write (path text : String) (s : Session) :
    result (liftM (onTree.write path text)) s =
      (.ok (s.tree.write path text).1, { s with tree := (s.tree.write path text).2 }) := by
  unfold onTree
  rw [result_modifyGet]

theorem result_print (line : String) (s : Session) :
    result (liftM (onTree.print line)) s =
      (.ok (), { s with shown := s.shown ++ (line ++ "\n") }) := rfl

/-! ## Reading -/

/-- The configuration that a run finds. -/
def configOf (t : Tree) (path : Option String) : Except Failure Config :=
  (result (readConfig onTree path) { tree := t }).1

/-- The text of a schema that a run finds. -/
def textOf (t : Tree) (path : String) : Except Failure String :=
  (result (readText onTree path) { tree := t }).1

/-- The schema that a run finds. -/
def schemaOf (t : Tree) (inputs : Inputs) : Except Failure Schema :=
  (result (readSchema onTree inputs) { tree := t }).1

/-- What a run generates from what it finds. -/
def compiled (t : Tree) (inputs : Inputs) : Except Failure (Config × Artifacts) :=
  (result (compile onTree inputs) { tree := t }).1

/-- What a run is to do for a request. -/
def taskOf (t : Tree) (request : Request) : Except Failure Task :=
  (result (prepare onTree request) { tree := t }).1

theorem result_readConfig (path : Option String) (s : Session) :
    result (readConfig onTree path) s = (configOf s.tree path, s) := by
  cases path with
  | none => rfl
  | some path =>
    unfold configOf readConfig
    rw [result_bind_of_ok (result_read path s), result_bind_of_ok (result_read path _)]
    cases s.tree.read path with
    | notOpened | notRead => rfl
    | text text => cases hc : Config.read? text <;> simp only [hc] <;> rfl

theorem result_readText (path : String) (s : Session) :
    result (readText onTree path) s = (textOf s.tree path, s) := by
  unfold textOf readText
  rw [result_bind_of_ok (result_read path s), result_bind_of_ok (result_read path _)]
  cases s.tree.read path <;> rfl

theorem result_loadSchema (text : String) (config : Config) (s : Session) :
    result (loadSchema text config) s = ((Schema.load text config).mapError .load, s) := by
  unfold loadSchema
  cases Schema.load text config <;> rfl

/-- The schema's text is read first. -/
theorem result_readSchema (inputs : Inputs) (s : Session) :
    result (readSchema onTree inputs) s =
      ((do
        let text ← textOf s.tree inputs.schema
        let config ← configOf s.tree inputs.config
        (Schema.load text config).mapError .load), s) :=
  result_bind (result_readText _ s) fun text =>
    result_bind (result_readConfig _ s) fun config => result_loadSchema text config s

theorem schemaOf_eq (t : Tree) (inputs : Inputs) : schemaOf t inputs = (do
    let text ← textOf t inputs.schema
    let config ← configOf t inputs.config
    (Schema.load text config).mapError .load) :=
  congrArg Prod.fst (result_readSchema inputs { tree := t })

/-- What is generated needs the configuration first. -/
theorem result_compile (inputs : Inputs) (s : Session) :
    result (compile onTree inputs) s =
      ((do
        let config ← configOf s.tree inputs.config
        let text ← textOf s.tree inputs.schema
        let schema ← (Schema.load text config).mapError .load
        return (config, Artifacts.ofSchema schema config)), s) :=
  result_bind (result_readConfig _ s) fun config =>
    result_bind (result_readText _ s) fun text =>
      result_bind (result_loadSchema text config s) fun schema =>
        result_pure (config, Artifacts.ofSchema schema config) s

theorem compiled_eq (t : Tree) (inputs : Inputs) : compiled t inputs = (do
    let config ← configOf t inputs.config
    let text ← textOf t inputs.schema
    let schema ← (Schema.load text config).mapError .load
    return (config, Artifacts.ofSchema schema config)) :=
  congrArg Prod.fst (result_compile inputs { tree := t })

/-! ## What is found -/

/-- A text that cannot be read is a failure of files. -/
theorem eq_file_of_textOf {t : Tree} {path : String} {cause : Failure}
    (h : textOf t path = .error cause) : cause = .file := by
  unfold textOf readText at h
  rw [result_bind_of_ok (result_read path _)] at h
  revert h
  cases t.read path <;> simp [eq_comm]

/-- The configuration of a file that holds a text. -/
theorem configOf_of_read {t : Tree} {path text : String} (h : t.read path = .text text) :
    configOf t (some path) = (Config.read? text).elim (.error .config) .ok := by
  unfold configOf readConfig
  rw [result_bind_of_ok (result_read path _), h]
  cases hc : Config.read? text <;> simp only [hc] <;> rfl

theorem schemaOf_eq_ok_iff {t : Tree} {inputs : Inputs} {schema : Schema} :
    schemaOf t inputs = .ok schema ↔ ∃ text config, textOf t inputs.schema = .ok text ∧
      configOf t inputs.config = .ok config ∧ Schema.load text config = .ok schema := by
  simp only [schemaOf_eq, bind_eq_ok_iff, mapError_eq_ok_iff]
  constructor
  · rintro ⟨text, ht, config, hc, hs⟩
    exact ⟨text, config, ht, hc, hs⟩
  · rintro ⟨text, config, ht, hc, hs⟩
    exact ⟨text, ht, config, hc, hs⟩

theorem compiled_eq_ok_iff {t : Tree} {inputs : Inputs} {config : Config} {artifacts : Artifacts} :
    compiled t inputs = .ok (config, artifacts) ↔ ∃ text schema,
      textOf t inputs.schema = .ok text ∧ configOf t inputs.config = .ok config ∧
        Schema.load text config = .ok schema ∧ artifacts = Artifacts.ofSchema schema config := by
  simp only [compiled_eq, bind_eq_ok_iff, mapError_eq_ok_iff]
  constructor
  · rintro ⟨config', hc, text, ht, schema, hs, he⟩
    obtain ⟨rfl, rfl⟩ := Prod.mk.inj (Except.ok.inj he)
    exact ⟨text, schema, ht, hc, hs, rfl⟩
  · rintro ⟨text, schema, ht, hc, hs, rfl⟩
    exact ⟨config, hc, text, ht, schema, hs, rfl⟩

/-! ## Tasks -/

theorem result_prepare (request : Request) (s : Session) :
    result (prepare onTree request) s = (taskOf s.tree request, s) := by
  have hschema : ∀ inputs (task : Schema → Task),
      result (do return task (← readSchema onTree inputs)) s =
        ((result (do return task (← readSchema onTree inputs)) { tree := s.tree }).1, s) := by
    intro inputs task
    rw [result_bind (result_readSchema inputs s) fun _ => result_pure _ s,
      result_bind (result_readSchema inputs _) fun _ => result_pure _ _]
  cases request with
  | generate inputs output =>
    show result (compile onTree inputs >>= _) s =
      ((result (compile onTree inputs >>= _) { tree := s.tree }).1, s)
    rw [result_bind (result_compile inputs s) fun _ => result_pure _ s,
      result_bind (result_compile inputs _) fun _ => result_pure _ _]
  | check inputs | dump inputs | parse inputs argv | bind inputs exportName json =>
    exact hschema inputs _

section

variable {t : Tree} {inputs : Inputs}

theorem taskOf_generate (output : String) : taskOf t (.generate inputs output) =
    (compiled t inputs).map fun found => .write output found.1 found.2 := by
  unfold taskOf
  show (result (compile onTree inputs >>= _) _).1 = _
  rw [result_bind (result_compile inputs _) fun _ => result_pure _ _, compiled_eq]
  rfl

/-- A task that needs the schema alone. -/
theorem fst_result_readSchema_bind (task : Schema → Task) :
    (result (do return task (← readSchema onTree inputs)) { tree := t }).1 =
      (schemaOf t inputs).map task := by
  rw [result_bind (result_readSchema inputs _) fun _ => result_pure _ _, schemaOf_eq]
  rfl

theorem taskOf_check :
    taskOf t (.check inputs) = (schemaOf t inputs).map (.count inputs.schema) :=
  fst_result_readSchema_bind _

theorem taskOf_dump : taskOf t (.dump inputs) = (schemaOf t inputs).map .dump :=
  fst_result_readSchema_bind _

theorem taskOf_parse (argv : List String) :
    taskOf t (.parse inputs argv) = (schemaOf t inputs).map fun schema => .parse schema argv :=
  fst_result_readSchema_bind _

theorem taskOf_bind (exportName json : String) : taskOf t (.bind inputs exportName json) =
    (schemaOf t inputs).map fun schema => .bind schema exportName json :=
  fst_result_readSchema_bind _

end

/-! ## Runs -/

theorem status_failure_ne_zero {cause : Failure} :
    (Outcome.failure cause : Outcome α).status ≠ 0 := by
  show (1 : UInt8) ≠ 0
  decide

section

variable {t : Tree} {args : List String} {request : Request}

theorem runOn_of_none (h : Request.ofArgs? args = none) :
    runOn t args = (.usage, { tree := t }) := by
  unfold runOn run
  rw [h]
  rfl

theorem runOn_eq (h : Request.ofArgs? args = some request) : runOn t args =
    (.ofExcept (result (prepare onTree request >>= perform onTree) { tree := t }).1,
      (result (prepare onTree request >>= perform onTree) { tree := t }).2) := by
  unfold runOn run
  rw [h]
  rfl

/-- A run that cannot find out what to do fails for this reason and leaves everything as it was. -/
theorem runOn_of_taskOf_error (h : Request.ofArgs? args = some request) {cause : Failure}
    (ht : taskOf t request = .error cause) : runOn t args = (.failure cause, { tree := t }) := by
  have hp := result_prepare request { tree := t }
  rw [ht] at hp
  rw [runOn_eq h, result_bind_of_error hp]
  rfl

/-- A run that has found out what to do does it. -/
theorem runOn_of_taskOf_ok (h : Request.ofArgs? args = some request) {task : Task}
    (ht : taskOf t request = .ok task) : runOn t args =
      (.ofExcept (result (perform onTree task) { tree := t }).1,
        (result (perform onTree task) { tree := t }).2) := by
  have hp := result_prepare request { tree := t }
  rw [ht] at hp
  rw [runOn_eq h, result_bind_of_ok hp]

end

end CommandSchema.CommandLine
