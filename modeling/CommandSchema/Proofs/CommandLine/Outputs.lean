import CommandSchema.Proofs.CommandLine.Effects
import CommandSchema.Proofs.Generated.Distinct
import CommandSchema.Proofs.Schema.Lookup

/-!
# What the written files read as

Nothing keeps a configuration from giving two of the five files the same path, or paths that lead to
the same place. The files are written one after the other, so the last one at a place is the one
that is there in the end.

* `Written`: the files of a schema have been written.
* `readsBack_of_written`: what they read as, and when all of them read as they were written.
* `not_readsBack_shared`: a configuration with which one of them is lost.
-/

namespace CommandSchema.CommandLine

variable {t t' : Tree} {schema : Schema} {config : Config} {root : String} {inputs : Inputs}
  {args : List String}

/-! ## Statement -/

/-- The files of a schema under a configuration, below a directory. -/
def outputs (schema : Schema) (config : Config) (root : String) : List (String × String) :=
  below root ((Artifacts.ofSchema schema config).files config)

/-- The places of these files. They do not depend on the schema. -/
def places (t : Tree) (config : Config) (root : String) : List Location :=
  (Artifacts.paths config).map fun path => t.place (Path.join root path)

/-- The files of a schema have been written into a tree, which is another one since. -/
inductive Written (schema : Schema) (config : Config) (root : String) (t : Tree) : Tree → Prop
  /-- By themselves. -/
  | alone {shown : String} {paths : List String} {s : Session}
      (h : result (writeAll onTree root ((Artifacts.ofSchema schema config).files config))
        { tree := t, shown } = (.ok paths, s)) : Written schema config root t s.tree
  /-- By a run that has read the schema and the configuration. -/
  | run {args : List String} {inputs : Inputs} {text : String} {s : Session}
      (hargs : Request.ofArgs? args = some (.generate inputs root))
      (htext : textOf t inputs.schema = .ok text) (hconfig : configOf t inputs.config = .ok config)
      (hschema : Schema.load text config = .ok schema) (h : runOn t args = (.success (), s)) :
      Written schema config root t s.tree

/-! ## Writing -/

/-- A run that succeeds has written all files. -/
theorem eq_writeFiles_of_success {artifacts : Artifacts} {s : Session}
    (hargs : Request.ofArgs? args = some (.generate inputs root))
    (hc : compiled t inputs = .ok (config, artifacts)) (h : runOn t args = (.success (), s)) :
    (t.writeFiles (below root (artifacts.files config))).1 =
        (below root (artifacts.files config)).length ∧
      s.tree = (t.writeFiles (below root (artifacts.files config))).2 := by
  have htask : taskOf t (.generate inputs root) = _ := taskOf_generate root
  rw [hc] at htask
  rw [runOn_of_taskOf_ok hargs htask, result_perform_write] at h
  dsimp only at h
  split at h
  · next hall =>
    refine ⟨hall, ?_⟩
    rw [← (Prod.mk.inj h).2]
  · cases (Prod.mk.inj h).1

theorem exists_session {outcome : Outcome Unit} (h : (runOn t args).1 = outcome) :
    ∃ s, runOn t args = (outcome, s) := ⟨_, Prod.ext h rfl⟩

theorem Written.eq_writeFiles (h : Written schema config root t t') :
    (t.writeFiles (outputs schema config root)).1 = (outputs schema config root).length ∧
      t' = (t.writeFiles (outputs schema config root)).2 := by
  cases h with
  | alone h =>
    rw [result_writeAll, ← outputs] at h
    split at h
    · next hall =>
      refine ⟨hall, ?_⟩
      rw [← (Prod.mk.inj h).2]
    · cases (Prod.mk.inj h).1
  | run hargs htext hconfig hschema h =>
    exact eq_writeFiles_of_success hargs
      (compiled_eq_ok_iff.2 ⟨_, _, htext, hconfig, hschema, rfl⟩) h

/-! ## Reading -/

theorem map_path_files (artifacts : Artifacts) (config : Config) :
    (artifacts.files config).map (·.1) = Artifacts.paths config :=
  List.map_fst_zip (Nat.le_refl 5)

theorem map_text_files (artifacts : Artifacts) (config : Config) :
    (artifacts.files config).map (·.2) = artifacts.texts :=
  List.map_snd_zip (Nat.le_refl 5)

theorem map_place_outputs (t : Tree) (schema : Schema) (config : Config) (root : String) :
    ((outputs schema config root).map fun f => t.place f.1) = places t config root := by
  rw [outputs, below, List.map_map, places, ← map_path_files, List.map_map]
  rfl

theorem map_text_outputs (schema : Schema) (config : Config) (root : String) :
    (outputs schema config root).map (·.2) = (Artifacts.ofSchema schema config).texts := by
  rw [outputs, below, List.map_map, ← map_text_files]
  rfl

/-- With a plain configuration files agree exactly if no two of them share a place. -/
theorem agree_outputs_iff (t : Tree) (schema : Schema) (root : String) (h : config.IsPlain) :
    t.Agree (outputs schema config root) ↔ (places t config root).Nodup := by
  rw [Tree.agree_iff_nodup (by rw [map_text_outputs]; exact Generated.nodup_texts schema h),
    map_place_outputs]

/-- What the files read as once they have been written. -/
theorem readsBack_of_written (h : Written schema config root t t') :
    (∀ f ∈ outputs schema config root, ∃ last,
      t.IsLast (outputs schema config root) (t.place f.1) last ∧ t'.read f.1 = .text last.2) ∧
    (t'.ReadsBack (outputs schema config root) ↔ t.Agree (outputs schema config root)) ∧
    (config.IsPlain →
      (t'.ReadsBack (outputs schema config root) ↔ (places t config root).Nodup)) := by
  obtain ⟨hall, ht⟩ := h.eq_writeFiles
  rw [ht]
  have hback := Tree.readsBack_iff hall
  refine ⟨fun f hf => ?_, hback, fun hplain => hback.trans (agree_outputs_iff t schema root hplain)⟩
  obtain ⟨last, hlast⟩ := Tree.exists_isLast ⟨f, hf, rfl⟩
  exact ⟨last, hlast, Tree.read_writeFiles hall hf hlast⟩

/-- The default configuration gives every file a place of its own. -/
theorem readsBack_of_written_default :
    let t := Tree.ofFiles [("s.yml", "exit: \x7b\x7d\n")]
    let schema : Schema := ⟨[⟨"exit", []⟩]⟩
    ∃ s, runOn t ["generate", "-i", "s.yml", "-o", "out"] = (.success (), s) ∧
      Written schema {} "out" t s.tree ∧ s.tree.ReadsBack (outputs schema {} "out") := by
  intro t schema
  have hargs : Request.ofArgs? ["generate", "-i", "s.yml", "-o", "out"] =
      some (.generate ⟨"s.yml", none⟩ "out") := by decide +kernel
  have htext : textOf t "s.yml" = .ok "exit: \x7b\x7d\n" := by decide +kernel
  have hschema : Schema.load "exit: \x7b\x7d\n" {} = .ok schema :=
    Schema.load_of_toOption (by decide +kernel)
  have hsuccess : (runOn t ["generate", "-i", "s.yml", "-o", "out"]).1 = .success () := by
    decide +kernel
  obtain ⟨s, hs⟩ := exists_session hsuccess
  have hwritten : Written schema {} "out" t s.tree := .run hargs htext rfl hschema hs
  obtain ⟨-, -, hback⟩ := readsBack_of_written hwritten
  exact ⟨s, hs, hwritten, (hback (Config.isPlain_default [])).2 (by decide +kernel)⟩

/-- Where the header and the handlers have one name, the run succeeds but the header is lost. -/
theorem not_readsBack_shared :
    let t := Tree.ofFiles
      [("s.yml", "exit: \x7b\x7d\n"), ("c.yml", "files: \x7bheader: run.h\x7d\n")]
    let schema : Schema := ⟨[⟨"exit", []⟩]⟩
    let config : Config := { files := { header := "run.h" } }
    ∃ s, runOn t ["generate", "-i", "s.yml", "-c", "c.yml", "-o", "out"] = (.success (), s) ∧
      Written schema config "out" t s.tree ∧ ¬ s.tree.ReadsBack (outputs schema config "out") := by
  intro t schema config
  have hargs : Request.ofArgs? ["generate", "-i", "s.yml", "-c", "c.yml", "-o", "out"] =
      some (.generate ⟨"s.yml", some "c.yml"⟩ "out") := by decide +kernel
  have htext : textOf t "s.yml" = .ok "exit: \x7b\x7d\n" := by decide +kernel
  have hconfig : configOf t (some "c.yml") = .ok config := by decide +kernel
  have hschema : Schema.load "exit: \x7b\x7d\n" config = .ok schema :=
    Schema.load_of_toOption (by decide +kernel)
  have hsuccess : (runOn t ["generate", "-i", "s.yml", "-c", "c.yml", "-o", "out"]).1 =
      .success () := by decide +kernel
  obtain ⟨s, hs⟩ := exists_session hsuccess
  have hwritten : Written schema config "out" t s.tree := .run hargs htext hconfig hschema hs
  obtain ⟨hall, ht⟩ := hwritten.eq_writeFiles
  have hplain : config.IsPlain := ⟨(Config.isPlain_default []).nameSpace,
    (Config.isPlain_default []).parserGuard, (Config.isPlain_default []).runGuard,
    (Config.isPlain_default []).responseModule⟩
  refine ⟨s, hs, hwritten, ?_⟩
  rw [ht, Tree.readsBack_iff hall, agree_outputs_iff t schema "out" hplain]
  decide +kernel

end CommandSchema.CommandLine
