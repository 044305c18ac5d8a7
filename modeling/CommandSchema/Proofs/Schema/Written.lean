import CommandSchema.Proofs.Schema.Document
import CommandSchema.Proofs.Schema.Rules
import CommandSchema.Proofs.Yaml.Keys
import CommandSchema.Schema.Load
import Mathlib.Data.List.Forall2

/-!
# What a schema that has been written is made of

What the grammar of schemas guarantees of every schema that has been read from a text, before any
rule is judged, and what a loaded schema guarantees with the rules.

* `Field.IsWritten`, `Command.IsWritten`, `Schema.IsWritten`: the guarantees of the grammar.
* `Schema.isWritten_of_parse`: a schema that has been read has them.
* `Schema.IsLoaded`, `Schema.isLoaded_of_load`: they hold with the rules once a schema is loaded.
-/

namespace CommandSchema

/-- The parts of a field that has been written. -/
structure Field.IsWritten (f : Field) : Prop where
  flag : Schema.isFlag f.flag = true
  /-- The name is a letter, then letters and digits. -/
  name : ∃ c cs, f.name.toList = c :: cs ∧ c.isAlpha = true ∧ ∀ d ∈ cs, d.isAlphanum = true
  typeName : Text.isIdentifier f.type.name = true
  /-- The type is the one that its name stands for. -/
  type : .ofName f.type.name = f.type
  initial : ∀ e, f.initial = some e → e ≠ "" ∧ '\n' ∉ e.toList

/-- The parts of a command that has been written. -/
structure Command.IsWritten (c : Command) : Prop where
  name : Text.isIdentifier c.name = true
  flags : (c.fields.map (·.flag)).Nodup
  fields : ∀ f ∈ c.fields, f.IsWritten

/-- The parts of a schema that has been written. -/
structure Schema.IsWritten (s : Schema) : Prop where
  names : (s.commands.map (·.name)).Nodup
  commands : ∀ c ∈ s.commands, c.IsWritten

/-! ## Fields -/

namespace Field

/-- Parts that the grammar has are written under a flag. -/
theorem isWritten_of_isValid {flag : String} {p : SpecParts} (hflag : Schema.isFlag flag = true)
    (hp : p.IsValid) : (p.field flag).IsWritten := by
  refine ⟨hflag, hp.name, ?_, ?_, hp.initial⟩
  · rw [SpecParts.field, FieldType.name_ofName]
    exact isIdentifier_iff.2 hp.typeName
  · rw [SpecParts.field, FieldType.name_ofName]

end Field

/-! ## Entries of mappings -/

section Mapping

variable {α β : Type}

theorem exists_of_forall₂ {R : α → β → Prop} {l : List α} {bs : List β} (h : List.Forall₂ R l bs) :
    ∀ b ∈ bs, ∃ a ∈ l, R a b := by
  induction h with
  | nil => simp
  | @cons a b l bs hab _ ih =>
    intro c hc
    obtain rfl | hc := List.mem_cons.1 hc
    · exact ⟨a, List.mem_cons_self, hab⟩
    · obtain ⟨a', ha', hr⟩ := ih c hc
      exact ⟨a', List.mem_cons_of_mem _ ha', hr⟩

/-- Entries of a mapping that are read one by one have the texts of their keys as keys. -/
theorem nodup_of_forall₂ {entries : List (Yaml.Value × Yaml.Value)} {l : List β} (key : β → String)
    (hkeys : Yaml.Value.hasRepeatedKey entries = false)
    (h : List.Forall₂ (fun e b => e.1 = .text (key b)) entries l) : (l.map key).Nodup := by
  refine Yaml.Value.nodup_textKeys key hkeys ?_
  clear hkeys
  induction h with
  | nil => rfl
  | cons he _ ih => rw [List.map_cons, List.map_cons, he, ih]

end Mapping

/-! ## Commands and schemas -/

theorem FieldEntry.isWritten {command : String} {e : Yaml.Value × Yaml.Value} {f : Field}
    (h : FieldEntry command e f) : e.1 = .text f.flag ∧ f.IsWritten := by
  obtain ⟨hflag, hparse⟩ := h
  obtain ⟨p, hp, -, rfl⟩ := Field.parse_eq_ok_iff.1 hparse
  exact ⟨rfl, Field.isWritten_of_isValid hflag hp⟩

theorem FieldEntries.isWritten {command : String} {v : Yaml.Value} {fields : List Field}
    (hv : v.Distinct) (h : FieldEntries command v fields) :
    (fields.map (·.flag)).Nodup ∧ ∀ f ∈ fields, f.IsWritten := by
  cases h with
  | null => simp
  | mapping all =>
    cases hv with
    | mapping hkeys _ _ =>
      refine ⟨nodup_of_forall₂ _ hkeys (all.imp fun _ _ he => he.isWritten.1), fun f hf => ?_⟩
      obtain ⟨e, -, he⟩ := exists_of_forall₂ all f hf
      exact he.isWritten.2

theorem CommandEntry.isWritten {e : Yaml.Value × Yaml.Value} {c : Command}
    (h : CommandEntry e c) : e.1 = .text c.name ∧ (e.2.Distinct → c.IsWritten) := by
  obtain ⟨hname, hall⟩ := h
  refine ⟨rfl, fun hv => ?_⟩
  obtain ⟨hflags, hfields⟩ := hall.isWritten hv
  exact ⟨hname, hflags, hfields⟩

theorem Document.isWritten {v : Yaml.Value} {s : Schema} (hv : v.Distinct) (h : Document v s) :
    s.IsWritten := by
  cases h with
  | null => exact ⟨List.nodup_nil, by simp⟩
  | mapping all =>
    cases hv with
    | mapping hkeys _ hvals =>
      refine ⟨nodup_of_forall₂ _ hkeys (all.imp fun _ _ he => he.isWritten.1), fun c hc => ?_⟩
      obtain ⟨e, hmem, he⟩ := exists_of_forall₂ all c hc
      exact he.isWritten.2 (hvals e hmem)

namespace Schema

/-- A schema that has been read has the parts that the grammar says. -/
theorem isWritten_of_parse {text : String} {s : Schema} (h : parse text = .ok s) : s.IsWritten := by
  unfold parse at h
  split at h
  · cases h
  · next v hv =>
    exact (ofYaml_eq_ok_iff.1 h).isWritten (Yaml.Value.distinct_of_read? hv)

/-- What holds of a schema that has been loaded. -/
structure IsLoaded (foreignTypes : List String) (s : Schema) : Prop where
  written : s.IsWritten
  rules : s.KeepsRules foreignTypes

theorem load_of_toOption {text : String} {config : Config} {s : Schema}
    (h : (load text config).toOption = some s) : load text config = .ok s := by
  cases hl : load text config with
  | error e => simp [hl, Except.toOption] at h
  | ok s' =>
    rw [hl] at h
    exact congrArg Except.ok (Option.some.inj h)

theorem isLoaded_of_load {text : String} {config : Config} {s : Schema}
    (h : load text config = .ok s) : s.IsLoaded config.foreignTypes := by
  unfold load at h
  split at h
  · cases h
  · next s' hs =>
    split at h
    · cases h
    · next hv =>
      cases h
      exact ⟨isWritten_of_parse hs, verify_eq_ok_iff.1 hv⟩

end Schema

end CommandSchema
