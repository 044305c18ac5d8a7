import CommandSchema.Proofs.Except
import CommandSchema.Proofs.Record
import CommandSchema.Schema.Rules

/-!
# What the rules say

The rules of a schema without the order in which they are judged: a schema is accepted exactly if
all of them hold. In that order, each name is judged after those before it.

* `Command.KeepsRules`, `Schema.KeepsRules`: the rules.
* `Command.NamesFit`, `Field.Fits`: the rules for a command or a field after those before it.
* `ForeignFault`, `Command.NameFault`, `Command.FieldFault`: how they are broken.
* `Command.judges_checkNames`, `Command.judges_checkField`: one round of the loops over commands and
  fields.
* `Schema.verify_eq_ok_iff`: no violation is found exactly if all rules hold.
-/

namespace CommandSchema

/-- The rules for the fields of a command. -/
structure Command.KeepsRules (foreignTypes : List String) (c : Command) : Prop where
  /-- Names differ in more than the case of their first letter. -/
  locals : (c.fields.map fun f => Text.capitalize f.name).Nodup
  keywords : ∀ f ∈ c.fields, f.name ∉ cppKeywords
  types : ∀ f ∈ c.fields, ∀ n, f.type = .foreign n → n ∈ foreignTypes

/-- The rules for a schema. -/
structure Schema.KeepsRules (foreignTypes : List String) (s : Schema) : Prop where
  foreignNames : ∀ n ∈ foreignTypes, Text.isIdentifier n = true ∧ n ∉ FieldType.builtinNames
  nonempty : s.commands ≠ []
  recordNames : (s.commands.map (·.recordName)).Nodup
  reservedRecords : ∀ c ∈ s.commands, c.recordName ∉ reservedRecordNames
  reservedExports : ∀ c ∈ s.commands, c.exportName ∉ jsReservedWords
  commands : ∀ c ∈ s.commands, c.KeepsRules foreignTypes

/-! ## Lists that are judged member by member -/

section Lists

variable {α β : Type}

/-- Keys are distinct if every one differs from those before it. -/
theorem nodup_map_iff {key : α → β} {l : List α} :
    (l.map key).Nodup ↔
      ∀ before a after, l = before ++ a :: after → ∀ b ∈ before, key b ≠ key a := by
  induction l with
  | nil => simp
  | cons x l ih =>
    rw [List.map_cons, List.nodup_cons, ih]
    constructor
    · rintro ⟨hx, hl⟩ before a after hs b hb
      cases before with
      | nil => simp at hb
      | cons y before =>
        obtain ⟨rfl, rfl⟩ := List.cons.inj hs
        obtain rfl | hb := List.mem_cons.1 hb
        · exact fun he => hx (List.mem_map.2 ⟨a, by simp, he.symm⟩)
        · exact hl before a after rfl b hb
    · intro h
      refine ⟨fun hx => ?_, fun before a after hs b hb => ?_⟩
      · obtain ⟨a, ha, he⟩ := List.mem_map.1 hx
        obtain ⟨before, after, rfl⟩ := List.append_of_mem ha
        exact h (x :: before) a after rfl x List.mem_cons_self he.symm
      · exact h (x :: before) a after (by simp [hs]) b (List.mem_cons_of_mem _ hb)

/-- A property of every member, said of a member with what stands around it. -/
theorem forall_mem_iff_split {P : α → Prop} {l : List α} :
    (∀ a ∈ l, P a) ↔ ∀ before a after, l = before ++ a :: after → P a := by
  constructor
  · rintro h before a after rfl
    exact h a (by simp)
  · intro h a ha
    obtain ⟨before, after, hs⟩ := List.append_of_mem ha
    exact h before a after hs

/-- A member is the only one of a list that has a key. -/
def IsOnly (key : α → β) (k : β) (l : List α) (a : α) : Prop :=
  ∃ before after, l = before ++ a :: after ∧ key a = k ∧ ∀ b ∈ before ++ after, key b ≠ k

/-- The names of members under their keys, the latest one first. -/
def nameTable (key name : α → String) (l : List α) : List (String × String) :=
  (l.map fun a => (key a, name a)).reverse

variable {key name : α → String} {l : List α}

theorem nameTable_concat (a : α) :
    nameTable key name (l ++ [a]) = (key a, name a) :: nameTable key name l := by
  simp [nameTable]

theorem lookup_nameTable_eq_none_iff {k : String} :
    (nameTable key name l).lookup k = none ↔ ∀ a ∈ l, key a ≠ k := by
  rw [List.lookup_eq_none_iff]
  simp [nameTable, ne_comm]

/-- Where keys are distinct, the name under a key is that of the one member that has it. -/
theorem lookup_nameTable_eq_some_iff (h : (l.map key).Nodup) {k n : String} :
    (nameTable key name l).lookup k = some n ↔ ∃ a, IsOnly key k l a ∧ name a = n := by
  have hkeys : ((nameTable key name l).map (·.1)).Nodup := by
    rw [nameTable, List.map_reverse, List.nodup_reverse, List.map_map]
    exact h
  have hmem : (k, n) ∈ nameTable key name l ↔ ∃ a ∈ l, key a = k ∧ name a = n := by
    simp [nameTable]
  rw [lookup_eq_some_iff_mem hkeys, hmem]
  constructor
  · rintro ⟨a, ha, hk, hn⟩
    obtain ⟨before, after, rfl⟩ := List.append_of_mem ha
    refine ⟨a, ⟨before, after, rfl, hk, fun b hb hb' => ?_⟩, hn⟩
    rw [List.map_append, List.map_cons, List.nodup_middle, ← List.map_append] at h
    exact (List.nodup_cons.1 h).1 (List.mem_map.2 ⟨b, hb, hb'.trans hk.symm⟩)
  · rintro ⟨a, ⟨before, after, rfl, hk, -⟩, hn⟩
    exact ⟨a, by simp, hk, hn⟩

end Lists

/-! ## Foreign types -/

/-- Why a foreign type is refused. -/
inductive ForeignFault (name : String) : Violation → Prop where
  | name (h : Text.isIdentifier name = false) : ForeignFault name (.foreignName name)
  | builtin (identifier : Text.isIdentifier name = true) (h : name ∈ FieldType.builtinNames) :
    ForeignFault name (.foreignBuiltin name)

theorem checkForeign_eq_ok_iff {n : String} :
    checkForeign n = .ok () ↔ Text.isIdentifier n = true ∧ n ∉ FieldType.builtinNames := by
  unfold checkForeign
  cases Text.isIdentifier n <;> simp

theorem checkForeign_eq_error_iff {n : String} {v : Violation} :
    checkForeign n = .error v ↔ ForeignFault n v := by
  unfold checkForeign
  constructor
  · intro h
    split_ifs at h with hi hb
    · cases h
      exact .name (by simpa using hi)
    · cases h
      exact .builtin (by simpa using hi) (by simpa using hb)
  · rintro (h | ⟨hi, hb⟩)
    · simp [h]
    · simp [hi, hb]

/-! ## Names of commands -/

namespace Command

/-- The names of a command fit in after the commands before it. -/
structure NamesFit (before : List Command) (c : Command) : Prop where
  record : ∀ e ∈ before, e.recordName ≠ c.recordName
  reservedRecord : c.recordName ∉ reservedRecordNames
  reservedExport : c.exportName ∉ jsReservedWords

/-- How the names of a command break a rule after the commands before it. The first rule that they
break counts. -/
inductive NameFault (before : List Command) (c : Command) : Violation → Prop where
  | sharedRecord {e : Command} (only : IsOnly recordName c.recordName before e) :
    NameFault before c (.sharedRecord e.name c.name c.recordName)
  | reservedRecord (record : ∀ e ∈ before, e.recordName ≠ c.recordName)
    (reserved : c.recordName ∈ reservedRecordNames) :
    NameFault before c (.reservedRecord c.recordName c.name)
  | reservedExport (record : ∀ e ∈ before, e.recordName ≠ c.recordName)
    (free : c.recordName ∉ reservedRecordNames) (reserved : c.exportName ∈ jsReservedWords) :
    NameFault before c (.reservedExport c.exportName c.name)

theorem allPass_namesFit_iff {commands : List Command} :
    AllPass NamesFit commands ↔
      (commands.map recordName).Nodup ∧
        (∀ c ∈ commands, c.recordName ∉ reservedRecordNames) ∧
        ∀ c ∈ commands, c.exportName ∉ jsReservedWords := by
  constructor
  · intro h
    exact ⟨nodup_map_iff.2 fun before c after hs => (h before c after hs).record,
      forall_mem_iff_split.2 fun before c after hs => (h before c after hs).reservedRecord,
      forall_mem_iff_split.2 fun before c after hs => (h before c after hs).reservedExport⟩
  · rintro ⟨hr, hw, hx⟩ before c after hs
    exact ⟨nodup_map_iff.1 hr before c after hs, forall_mem_iff_split.1 hw before c after hs,
      forall_mem_iff_split.1 hx before c after hs⟩

section Names

variable {before : List Command} {c : Command}

theorem checkNames_eq_ok_iff {records : List (String × String)} :
    c.checkNames (nameTable recordName name before) = .ok records ↔
      c.NamesFit before ∧ records = nameTable recordName name (before ++ [c]) := by
  rw [nameTable_concat]
  unfold checkNames
  cases hl : (nameTable recordName name before).lookup c.recordName with
  | some n =>
    refine iff_of_false (by simp) fun h => ?_
    rw [lookup_nameTable_eq_none_iff.2 h.1.record] at hl
    cases hl
  | none =>
    have hrecord := lookup_nameTable_eq_none_iff.1 hl
    simp only [List.contains_iff_mem]
    split_ifs with hw hx
    · exact iff_of_false (by simp) fun h => h.1.reservedRecord hw
    · exact iff_of_false (by simp) fun h => h.1.reservedExport hx
    · rw [Except.ok.injEq, eq_comm]
      exact ⟨fun h => ⟨⟨hrecord, hw, hx⟩, h⟩, fun h => h.2⟩

theorem checkNames_eq_error_iff (h : (before.map recordName).Nodup) {v : Violation} :
    c.checkNames (nameTable recordName name before) = .error v ↔ c.NameFault before v := by
  unfold checkNames
  simp only [List.contains_iff_mem]
  constructor
  · intro he
    split at he
    · next n hl =>
      obtain ⟨e, honly, rfl⟩ := (lookup_nameTable_eq_some_iff h).1 hl
      cases he
      exact .sharedRecord honly
    · next hl =>
      have hrecord := lookup_nameTable_eq_none_iff.1 hl
      split_ifs at he with hw hx
      · cases he
        exact .reservedRecord hrecord hw
      · cases he
        exact .reservedExport hrecord hw hx
  · rintro (honly | ⟨hrecord, hw⟩ | ⟨hrecord, hw, hx⟩)
    · rw [(lookup_nameTable_eq_some_iff h).2 ⟨_, honly, rfl⟩]
    · rw [lookup_nameTable_eq_none_iff.2 hrecord]
      exact if_pos hw
    · rw [lookup_nameTable_eq_none_iff.2 hrecord]
      exact (if_neg hw).trans (if_pos hx)

/-- One round of the loop over commands. -/
theorem judges_checkNames :
    Judges checkNames (nameTable recordName name) NamesFit NameFault where
  passes_iff := fun _ _ _ _ => checkNames_eq_ok_iff
  fails_iff := fun _ _ _ h => checkNames_eq_error_iff (allPass_namesFit_iff.1 h).1

end Names

end Command

/-! ## Fields -/

/-- The name of a field's member with an upper-case first letter. -/
def Field.localName (f : Field) : String := Text.capitalize f.name

/-- A field fits in after the fields before it. -/
structure Field.Fits (foreignTypes : List String) (before : List Field) (f : Field) : Prop where
  localName : ∀ e ∈ before, e.localName ≠ f.localName
  keyword : f.name ∉ cppKeywords
  type : ∀ n, f.type = .foreign n → n ∈ foreignTypes

theorem checkType_eq_ok_iff {foreignTypes : List String} {f : Field} :
    Command.checkType foreignTypes f = .ok () ↔ ∀ n, f.type = .foreign n → n ∈ foreignTypes := by
  unfold Command.checkType
  cases f.type <;> simp

theorem checkType_eq_error_iff {foreignTypes : List String} {f : Field} {v : Violation} :
    Command.checkType foreignTypes f = .error v ↔
      ∃ n, f.type = .foreign n ∧ n ∉ foreignTypes ∧ v = .unknownType n f.name := by
  unfold Command.checkType
  cases f.type with
  | foreign n => by_cases hn : n ∈ foreignTypes <;> simp [hn, eq_comm]
  | _ => simp

namespace Command

/-- How a field of a command breaks a rule after the fields before it. The first rule that it breaks
counts. -/
inductive FieldFault (foreignTypes : List String) (c : Command) (before : List Field) (f : Field) :
    Violation → Prop where
  | repeatedField {e : Field} (mem : e ∈ before) (same : e.name = f.name) :
    FieldFault foreignTypes c before f (.repeatedField f.name c.name)
  | keywordField (fresh : ∀ e ∈ before, e.name ≠ f.name) (keyword : f.name ∈ cppKeywords) :
    FieldFault foreignTypes c before f (.keywordField f.name c.name)
  | sameLocal {e : Field} (fresh : ∀ e ∈ before, e.name ≠ f.name) (free : f.name ∉ cppKeywords)
    (only : IsOnly Field.localName f.localName before e) :
    FieldFault foreignTypes c before f (.sameLocal e.name f.name c.name)
  | unknownType {n : String} (localName : ∀ e ∈ before, e.localName ≠ f.localName)
    (free : f.name ∉ cppKeywords) (type : f.type = .foreign n) (unknown : n ∉ foreignTypes) :
    FieldFault foreignTypes c before f (.unknownType n f.name)

/-- What is known of the fields that have been judged. -/
def judgedFields (fields : List Field) : JudgedFields :=
  ⟨fields.map (·.name), nameTable Field.localName Field.name fields⟩

section Fields

variable {foreignTypes : List String} {c : Command} {before : List Field} {f : Field}

theorem allPass_fits_iff {fields : List Field} :
    AllPass (Field.Fits foreignTypes) fields ↔
      (fields.map Field.localName).Nodup ∧ (∀ f ∈ fields, f.name ∉ cppKeywords) ∧
        ∀ f ∈ fields, ∀ n, f.type = .foreign n → n ∈ foreignTypes := by
  constructor
  · intro h
    exact ⟨nodup_map_iff.2 fun before f after hs => (h before f after hs).localName,
      forall_mem_iff_split.2 fun before f after hs => (h before f after hs).keyword,
      forall_mem_iff_split.2 fun before f after hs => (h before f after hs).type⟩
  · rintro ⟨hl, hk, ht⟩ before f after hs
    exact ⟨nodup_map_iff.1 hl before f after hs, forall_mem_iff_split.1 hk before f after hs,
      forall_mem_iff_split.1 ht before f after hs⟩

/-- Fields whose names differ in more than the case of the first letter differ in their names. -/
theorem name_ne_of_localName_ne (h : ∀ e ∈ before, e.localName ≠ f.localName) :
    ∀ e ∈ before, e.name ≠ f.name :=
  fun e he hn => h e he (congrArg Text.capitalize hn)

theorem contains_judgedFields_iff :
    (judgedFields before).names.contains f.name = true ↔ ∃ e ∈ before, e.name = f.name := by
  simp [judgedFields, eq_comm]

theorem not_contains_judgedFields_iff :
    ¬ (judgedFields before).names.contains f.name = true ↔ ∀ e ∈ before, e.name ≠ f.name := by
  rw [contains_judgedFields_iff, not_exists]
  simp only [not_and, ne_eq]

theorem checkField_eq_ok_iff {judged : JudgedFields} :
    c.checkField foreignTypes (judgedFields before) f = .ok judged ↔
      f.Fits foreignTypes before ∧ judged = judgedFields (before ++ [f]) := by
  have hnext : judgedFields (before ++ [f]) = ⟨(judgedFields before).names ++ [f.name],
      (Text.capitalize f.name, f.name) :: (judgedFields before).locals⟩ := by
    rw [judgedFields, nameTable_concat, List.map_append]
    rfl
  rw [hnext]
  unfold checkField
  split_ifs with hn hk
  · obtain ⟨e, he, hname⟩ := contains_judgedFields_iff.1 hn
    exact iff_of_false (by simp) fun h => name_ne_of_localName_ne h.1.localName e he hname
  · exact iff_of_false (by simp) fun h => h.1.keyword (by simpa using hk)
  · cases hl : (judgedFields before).locals.lookup (Text.capitalize f.name) with
    | some n =>
      refine iff_of_false (by simp) fun h => ?_
      rw [show (judgedFields before).locals.lookup (Text.capitalize f.name) = none from
        lookup_nameTable_eq_none_iff.2 h.1.localName] at hl
      cases hl
    | none =>
      have hlocal := lookup_nameTable_eq_none_iff.1 hl
      cases ht : checkType foreignTypes f with
      | error v =>
        refine iff_of_false (by simp) fun h => ?_
        rw [checkType_eq_ok_iff.2 h.1.type] at ht
        cases ht
      | ok _ =>
        rw [Except.ok.injEq, eq_comm]
        exact ⟨fun h => ⟨⟨hlocal, by simpa using hk, checkType_eq_ok_iff.1 ht⟩, h⟩, fun h => h.2⟩

theorem checkField_eq_error_iff (h : (before.map Field.localName).Nodup) {v : Violation} :
    c.checkField foreignTypes (judgedFields before) f = .error v ↔
      c.FieldFault foreignTypes before f v := by
  unfold checkField
  constructor
  · intro he
    split_ifs at he with hn hk
    · obtain ⟨e, hmem, hname⟩ := contains_judgedFields_iff.1 hn
      cases he
      exact .repeatedField hmem hname
    · cases he
      exact .keywordField (not_contains_judgedFields_iff.1 hn) (by simpa using hk)
    · have hfresh := not_contains_judgedFields_iff.1 hn
      have hfree : f.name ∉ cppKeywords := by simpa using hk
      split at he
      · next n hl =>
        obtain ⟨e, honly, rfl⟩ := (lookup_nameTable_eq_some_iff h).1 hl
        cases he
        exact .sameLocal hfresh hfree honly
      · next hl =>
        have hlocal := lookup_nameTable_eq_none_iff.1 hl
        split at he
        · next v' ht =>
          obtain ⟨n, htype, hunknown, rfl⟩ := checkType_eq_error_iff.1 ht
          cases he
          exact .unknownType hlocal hfree htype hunknown
        · cases he
  · rintro (⟨hmem, hname⟩ | ⟨hfresh, hk⟩ | ⟨hfresh, hfree, honly⟩ | ⟨hlocal, hfree, ht, hu⟩)
    · rw [if_pos (contains_judgedFields_iff.2 ⟨_, hmem, hname⟩)]
    · rw [if_neg (not_contains_judgedFields_iff.2 hfresh),
        if_pos (by simpa using hk)]
    · have hl : (judgedFields before).locals.lookup (Text.capitalize f.name) = some _ :=
        (lookup_nameTable_eq_some_iff h).2 ⟨_, honly, rfl⟩
      rw [if_neg (not_contains_judgedFields_iff.2 hfresh),
        if_neg (by simpa using hfree), hl]
    · have hfresh := name_ne_of_localName_ne hlocal
      have hl : (judgedFields before).locals.lookup (Text.capitalize f.name) = none :=
        lookup_nameTable_eq_none_iff.2 hlocal
      rw [if_neg (not_contains_judgedFields_iff.2 hfresh),
        if_neg (by simpa using hfree), hl, checkType_eq_error_iff.2 ⟨_, ht, hu, rfl⟩]

/-- One round of the loop over the fields of a command. -/
theorem judges_checkField :
    Judges (c.checkField foreignTypes) judgedFields (Field.Fits foreignTypes)
      (c.FieldFault foreignTypes) where
  passes_iff := fun _ _ _ _ => checkField_eq_ok_iff
  fails_iff := fun _ _ _ h => checkField_eq_error_iff (allPass_fits_iff.1 h).1

theorem checkFields_eq_ok_iff : c.checkFields foreignTypes = .ok () ↔ c.KeepsRules foreignTypes := by
  rw [checkFields, map_eq_ok_iff]
  constructor
  · rintro ⟨judged, h, -⟩
    obtain ⟨hl, hk, ht⟩ := allPass_fits_iff.1 (judges_checkField.foldlM_eq_ok_iff.1 h).1
    exact ⟨hl, hk, ht⟩
  · rintro ⟨hl, hk, ht⟩
    have hpass := allPass_fits_iff.2 ⟨hl, hk, ht⟩
    exact ⟨_, judges_checkField.foldlM_eq_ok_iff.2 ⟨hpass, rfl⟩, rfl⟩

theorem checkFields_eq_error_iff {v : Violation} :
    c.checkFields foreignTypes = .error v ↔
      FirstFaults (Field.Fits foreignTypes) (c.FieldFault foreignTypes) c.fields v :=
  map_eq_error_iff.trans judges_checkField.foldlM_eq_error_iff

end Fields

end Command

/-! ## All rules -/

namespace Schema

variable {s : Schema} {foreignTypes : List String}

theorem checkCommands_eq_ok_iff :
    s.checkCommands = .ok () ↔ s.commands ≠ [] ∧ AllPass Command.NamesFit s.commands := by
  rw [checkCommands]
  split_ifs with hempty
  · simp [List.isEmpty_iff.1 hempty]
  · rw [map_eq_ok_iff]
    constructor
    · rintro ⟨records, h, -⟩
      exact ⟨by simpa using hempty, (Command.judges_checkNames.foldlM_eq_ok_iff.1 h).1⟩
    · rintro ⟨-, h⟩
      exact ⟨_, Command.judges_checkNames.foldlM_eq_ok_iff.2 ⟨h, rfl⟩, rfl⟩

theorem checkCommands_eq_error_iff {v : Violation} :
    s.checkCommands = .error v ↔
      s.commands = [] ∧ v = .noCommands ∨
        FirstFaults Command.NamesFit Command.NameFault s.commands v := by
  rw [checkCommands]
  split_ifs with hempty
  · simp [List.isEmpty_iff.1 hempty, FirstFaults, eq_comm]
  · have hne : s.commands ≠ [] := by simpa using hempty
    rw [map_eq_error_iff, ← Command.judges_checkNames.foldlM_eq_error_iff]
    exact ⟨.inr, fun h => h.resolve_left fun he => hne he.1⟩

/-- A schema is judged in three steps, of which the first that fails counts. -/
theorem verify_eq_ok_iff : s.verify foreignTypes = .ok () ↔ s.KeepsRules foreignTypes := by
  simp only [verify, step_eq_ok_iff, forM_eq_ok_iff, checkForeign_eq_ok_iff,
    checkCommands_eq_ok_iff, Command.allPass_namesFit_iff, Command.checkFields_eq_ok_iff]
  constructor
  · rintro ⟨hf, ⟨hn, hr, hw, hx⟩, hc⟩
    exact ⟨hf, hn, hr, hw, hx, hc⟩
  · rintro ⟨hf, hn, hr, hw, hx, hc⟩
    exact ⟨hf, ⟨hn, hr, hw, hx⟩, hc⟩

end Schema

end CommandSchema
