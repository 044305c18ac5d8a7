import CommandSchema.Proofs.Schema.Written
import CommandSchema.Proofs.Text.Case
import Mathlib.Data.List.Nodup

/-!
# Lookups in a loaded schema

In a loaded schema, every lookup by a name finds the one entry with that name.

* `find?_key`, `mem_of_find?_key`, `find?_key_eq_some_iff`: what is looked up by a key that no other
  member has, and what is found by a key.
* `find?_key_of_perm`: the same in any order.
* `Inverts`: a lookup that is inverse to a list; `inverts_find?`: so is one by distinct keys.
* `Schema.IsLoaded.command?`, `Schema.IsLoaded.commandByExport?`, `Schema.IsLoaded.recordNamed`: a
  command by each of its names.
* `Command.IsWritten.fieldByFlag?`, `Command.KeepsRules.field?`: a field by its flag and its name.
* `Schema.IsLoaded.findsAll`: all lookups are inverse to their lists.
-/

namespace CommandSchema

/-- A member is found by its key if keys are distinct. -/
theorem find?_key {α κ : Type} [DecidableEq κ] {key : α → κ} {l : List α} {a : α}
    (h : (l.map key).Nodup) (ha : a ∈ l) : l.find? (key · == key a) = some a := by
  obtain ⟨before, after, rfl⟩ := List.append_of_mem ha
  have hb : ∀ b ∈ before, key b ≠ key a := nodup_map_iff.1 h before a after rfl
  refine List.find?_eq_some_iff_append.2 ⟨by simp, before, after, rfl, fun b hb' => ?_⟩
  simpa using hb b hb'

/-- What is found by a key is a member with that key. -/
theorem mem_of_find?_key {α κ : Type} [DecidableEq κ] {key : α → κ} {l : List α} {k : κ} {a : α}
    (h : l.find? (key · == k) = some a) : a ∈ l ∧ key a = k :=
  ⟨List.mem_of_find?_eq_some h, by simpa using List.find?_some h⟩

/-- With distinct keys, the member with a key is what is found by it. -/
theorem find?_key_eq_some_iff {α κ : Type} [DecidableEq κ] {key : α → κ} {l : List α}
    (h : (l.map key).Nodup) {k : κ} {a : α} :
    l.find? (key · == k) = some a ↔ a ∈ l ∧ key a = k := by
  refine ⟨mem_of_find?_key, ?_⟩
  rintro ⟨ha, rfl⟩
  exact find?_key h ha

/-- Distinct keys find the same whatever the order is. -/
theorem find?_key_of_perm {α κ : Type} [DecidableEq κ] {key : α → κ} {l l' : List α}
    (hp : l.Perm l') (h : (l.map key).Nodup) (k : κ) :
    l.find? (key · == k) = l'.find? (key · == k) := by
  have h' : (l'.map key).Nodup := (hp.map key).nodup_iff.1 h
  refine Option.ext fun a => ?_
  rw [find?_key_eq_some_iff h, find?_key_eq_some_iff h', hp.mem_iff]

/-- A lookup is inverse to a list: every entry is found under its key, which no entry at another
position has, and nothing is found under a key that no entry has. -/
structure Inverts {α κ : Type} (lookup : κ → Option α) (key : α → κ) (l : List α) : Prop where
  found : ∀ (i : Nat) a, l[i]? = some a → lookup (key a) = l[i]?
  alone : ∀ (i j : Nat) a b, l[i]? = some a → l[j]? = some b → key a = key b → i = j
  absent : ∀ k, (∀ a ∈ l, key a ≠ k) → lookup k = none

theorem inverts_find? {α κ : Type} [DecidableEq κ] {key : α → κ} {l : List α}
    (h : (l.map key).Nodup) : Inverts (fun k => l.find? (key · == k)) key l where
  found := by
    intro i a hi
    rw [hi]
    exact find?_key h (List.mem_of_getElem? hi)
  alone := by
    intro i j a b hi hj hkey
    have hlength : i < (l.map key).length := by
      rw [List.length_map]
      exact (List.getElem?_eq_some_iff.1 hi).1
    refine (List.getElem?_inj hlength h).1 ?_
    rw [List.getElem?_map, List.getElem?_map, hi, hj, Option.map_some, Option.map_some, hkey]
  absent := by
    intro k hk
    exact List.find?_eq_none.2 fun a ha => by simpa using hk a ha

namespace Command

theorem KeepsRules.names {foreignTypes : List String} {c : Command}
    (h : c.KeepsRules foreignTypes) : (c.fields.map (·.name)).Nodup := by
  have hl : ((c.fields.map (·.name)).map Text.capitalize).Nodup := by
    rw [List.map_map]
    exact h.locals
  exact List.Nodup.of_map _ hl

theorem IsWritten.fieldByFlag? {c : Command} (h : c.IsWritten) {f : Field} (hf : f ∈ c.fields) :
    c.fieldByFlag? f.flag = some f :=
  find?_key h.flags hf

theorem KeepsRules.field? {foreignTypes : List String} {c : Command}
    (h : c.KeepsRules foreignTypes) {f : Field} (hf : f ∈ c.fields) : c.field? f.name = some f :=
  find?_key h.names hf

end Command

namespace Schema.IsLoaded

variable {foreignTypes : List String} {s : Schema}

theorem command? (h : s.IsLoaded foreignTypes) {c : Command} (hc : c ∈ s.commands) :
    s.command? c.name = some c :=
  find?_key h.written.names hc

theorem recordNamed (h : s.IsLoaded foreignTypes) {c : Command} (hc : c ∈ s.commands) :
    s.commands.find? (·.recordName == c.recordName) = some c :=
  find?_key h.rules.recordNames hc

/-- Export names are distinct, since record names are. -/
theorem exportNames (h : s.IsLoaded foreignTypes) : (s.commands.map (·.exportName)).Nodup := by
  refine List.Nodup.map_on (fun c hc d hd he => ?_) (List.Nodup.of_map _ h.rules.recordNames)
  have hr : c.recordName = d.recordName :=
    Text.camel_injective (h.written.commands c hc).name (h.written.commands d hd).name he
  exact List.inj_on_of_nodup_map h.rules.recordNames hc hd hr

theorem commandByExport? (h : s.IsLoaded foreignTypes) {c : Command} (hc : c ∈ s.commands) :
    s.commandByExport? c.exportName = some c :=
  find?_key h.exportNames hc

end Schema.IsLoaded

/-- The lookups of a schema and of its commands are inverse to their lists, and an export stands for
the command at its own position. -/
structure Schema.FindsAll (s : Schema) : Prop where
  commands : Inverts s.command? (·.name) s.commands
  exported : Inverts s.commandByExport? (·.exportName) s.commands
  flags : ∀ c ∈ s.commands, Inverts c.fieldByFlag? (·.flag) c.fields
  fields : ∀ c ∈ s.commands, Inverts c.field? (·.name) c.fields
  exports : ∀ i : Nat, s.exports[i]?.bind s.commandByExport? = s.commands[i]?

theorem Schema.IsLoaded.findsAll {foreignTypes : List String} {s : Schema}
    (h : s.IsLoaded foreignTypes) : s.FindsAll where
  commands := inverts_find? h.written.names
  exported := inverts_find? h.exportNames
  flags := fun c hc => inverts_find? (h.written.commands c hc).flags
  fields := fun c hc => inverts_find? (h.rules.commands c hc).names
  exports := by
    intro i
    rw [Schema.exports, List.getElem?_map]
    cases hi : s.commands[i]? with
    | none => rfl
    | some c => exact h.commandByExport? (List.mem_of_getElem? hi)

end CommandSchema
