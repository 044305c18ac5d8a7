import CommandSchema.Proofs.Schema.Written
import Mathlib.Data.List.Perm.Basic

/-!
# The rules and the order of a schema

A schema is accepted exactly if it keeps the rules, none of which speaks of an order. So a schema
with its commands, the fields of its commands and the foreign types in another order is accepted
just the same, though another violation may be the first one.

* `Command.Reorders`, `Schema.Reorders`: the same fields and the same commands in another order.
* `Schema.KeepsRules.of_reorders`: rules are kept in any order.
* `Schema.verify_iff_keepsRules`: what is accepted.
-/

namespace CommandSchema

/-- The second command is the first one with its fields in any order. -/
def Command.Reorders (c d : Command) : Prop := c.name = d.name ∧ c.fields.Perm d.fields

/-- The second schema has the commands of the first one in any order, each with its fields in any
order. -/
def Schema.Reorders (s s' : Schema) : Prop :=
  ∃ commands, List.Forall₂ Command.Reorders s.commands commands ∧ commands.Perm s'.commands

namespace Command

theorem Reorders.symm {c d : Command} (h : c.Reorders d) : d.Reorders c := ⟨h.1.symm, h.2.symm⟩

theorem Reorders.recordName_eq {c d : Command} (h : c.Reorders d) :
    c.recordName = d.recordName := by
  rw [recordName, recordName, h.1]

theorem Reorders.exportName_eq {c d : Command} (h : c.Reorders d) :
    c.exportName = d.exportName := by
  rw [exportName, exportName, h.1]

theorem KeepsRules.of_reorders {foreignTypes foreignTypes' : List String} {c d : Command}
    (h : c.KeepsRules foreignTypes) (hc : c.Reorders d) (hf : foreignTypes.Perm foreignTypes') :
    d.KeepsRules foreignTypes' where
  locals := (hc.2.map _).nodup_iff.1 h.locals
  keywords := fun f hfd => h.keywords f (hc.2.mem_iff.2 hfd)
  types := fun f hfd n hn => hf.mem_iff.1 (h.types f (hc.2.mem_iff.2 hfd) n hn)

end Command

namespace Schema

theorem Reorders.symm {s s' : Schema} (h : s.Reorders s') : s'.Reorders s := by
  obtain ⟨commands, hall, hperm⟩ := h
  have hall' : List.Forall₂ Command.Reorders commands s.commands :=
    (hall.imp fun _ _ hc => hc.symm).flip
  exact List.perm_comp_forall₂ hperm.symm hall'

/-- Every command of the reordered schema is a reordered command. -/
theorem Reorders.exists_command {s s' : Schema} (h : s.Reorders s') :
    ∀ d ∈ s'.commands, ∃ c ∈ s.commands, c.Reorders d := by
  obtain ⟨commands, hall, hperm⟩ := h
  intro d hd
  exact exists_of_forall₂ hall d (hperm.mem_iff.2 hd)

theorem Reorders.perm_recordNames {s s' : Schema} (h : s.Reorders s') :
    (s.commands.map (·.recordName)).Perm (s'.commands.map (·.recordName)) := by
  obtain ⟨commands, hall, hperm⟩ := h
  have hnames : List.Forall₂ Eq (s.commands.map (·.recordName)) (commands.map (·.recordName)) :=
    List.forall₂_map_left_iff.2 <| List.forall₂_map_right_iff.2 <|
      hall.imp fun _ _ hc => hc.recordName_eq
  rw [List.forall₂_eq_eq_eq] at hnames
  rw [hnames]
  exact hperm.map _

theorem KeepsRules.of_reorders {foreignTypes foreignTypes' : List String} {s s' : Schema}
    (h : s.KeepsRules foreignTypes) (hs : s.Reorders s') (hf : foreignTypes.Perm foreignTypes') :
    s'.KeepsRules foreignTypes' where
  foreignNames := fun n hn => h.foreignNames n (hf.mem_iff.2 hn)
  nonempty := by
    intro hnil
    have hlength := hs.perm_recordNames.length_eq
    rw [hnil, List.length_map] at hlength
    exact h.nonempty (List.length_eq_zero_iff.1 hlength)
  recordNames := hs.perm_recordNames.nodup_iff.1 h.recordNames
  reservedRecords := by
    intro d hd
    obtain ⟨c, hc, hcd⟩ := hs.exists_command d hd
    rw [← hcd.recordName_eq]
    exact h.reservedRecords c hc
  reservedExports := by
    intro d hd
    obtain ⟨c, hc, hcd⟩ := hs.exists_command d hd
    rw [← hcd.exportName_eq]
    exact h.reservedExports c hc
  commands := by
    intro d hd
    obtain ⟨c, hc, hcd⟩ := hs.exists_command d hd
    exact (h.commands c hc).of_reorders hcd hf

/-- A schema is accepted exactly if it keeps the rules, and so it is accepted in every order or in
none. -/
theorem verify_iff_keepsRules (s : Schema) (foreignTypes : List String) :
    (s.verify foreignTypes = .ok () ↔ s.KeepsRules foreignTypes) ∧
      ∀ s' foreignTypes', s.Reorders s' → foreignTypes.Perm foreignTypes' →
        (s.verify foreignTypes = .ok () ↔ s'.verify foreignTypes' = .ok ()) := by
  refine ⟨verify_eq_ok_iff, fun s' foreignTypes' hs hf => ?_⟩
  rw [verify_eq_ok_iff, verify_eq_ok_iff]
  constructor
  · intro h
    exact h.of_reorders hs hf
  · intro h
    exact h.of_reorders hs.symm hf.symm

/-- Two fields that differ in the case of a first letter which is written as two in upper case. The
schema is rejected in either order, with the fields named the other way round. -/
theorem verify_iff_keepsRules_sharp_s :
    let sharp : Field := ⟨"-a", "ßet", .foreign "Money", false, false, none⟩
    let double : Field := ⟨"-b", "SSet", .foreign "Ticket", false, false, none⟩
    let s : Schema := ⟨[⟨"exit", []⟩, ⟨"pay", [sharp, double]⟩]⟩
    let s' : Schema := ⟨[⟨"pay", [double, sharp]⟩, ⟨"exit", []⟩]⟩
    s.Reorders s' ∧ ["Money", "Ticket"].Perm ["Ticket", "Money"] ∧
      s.verify ["Money", "Ticket"] = .error (.sameLocal "ßet" "SSet" "pay") ∧
      s'.verify ["Ticket", "Money"] = .error (.sameLocal "SSet" "ßet" "pay") ∧
      (s.verify ["Money", "Ticket"] = .ok () ↔ s'.verify ["Ticket", "Money"] = .ok ()) := by
  intro sharp double s s'
  have hs : s.Reorders s' := by
    refine ⟨[⟨"exit", []⟩, ⟨"pay", [double, sharp]⟩], ?_, .swap ..⟩
    exact .cons ⟨rfl, .refl _⟩ (.cons ⟨rfl, .swap ..⟩ .nil)
  have hf : ["Money", "Ticket"].Perm ["Ticket", "Money"] := .swap ..
  have hverify : s.verify ["Money", "Ticket"] = .error (.sameLocal "ßet" "SSet" "pay") := by
    decide +kernel
  have hverify' : s'.verify ["Ticket", "Money"] = .error (.sameLocal "SSet" "ßet" "pay") := by
    decide +kernel
  exact ⟨hs, hf, hverify, hverify', (verify_iff_keepsRules s _).2 s' _ hs hf⟩

end Schema

end CommandSchema
