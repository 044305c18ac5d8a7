import CommandSchema.Proofs.Except
import CommandSchema.Proofs.Field.Spec
import CommandSchema.Schema.OfYaml

/-!
# Documents of schemas

A document writes a schema entry by entry: its commands stand in the order of the entries, and so do
the fields of each. A document that writes none has a first entry with a fault.

* `IsFieldEntry`, `IsCommandEntry`, `IsDocument`: what writes a field, a command, a schema.
* `FieldEntry`, `FieldEntries`, `CommandEntry`, `Document`: what is written.
* `FieldFault`, `FieldsFault`, `CommandFault`, `DocumentFault`: the faults. In an entry, the key
  comes first; of several entries, the first one that has a fault counts.
* `Schema.parse_document`: a schema is read as its document writes it, or for the fault of that
  document.
-/

namespace CommandSchema

/-! ## What writes a schema -/

/-- An entry that writes a field: a flag that is not empty and holds no white space, and a
specification. -/
def IsFieldEntry (command : String) (entry : Yaml.Value × Yaml.Value) : Prop :=
  ∃ flag spec, entry = (.text flag, .text spec) ∧ flag ≠ "" ∧
    (∀ c ∈ flag.toList, Text.isBlank c = false) ∧ ∃ f, Field.parse command flag spec = .ok f

/-- An entry that writes a command: an identifier, and nothing or a mapping of fields. -/
def IsCommandEntry (entry : Yaml.Value × Yaml.Value) : Prop :=
  ∃ name, entry.1 = .text name ∧
    IsWord Text.isIdentifierStart Text.isIdentifierRest name.toList ∧
    (entry.2 = .null ∨ ∃ entries, entry.2 = .mapping entries ∧ ∀ e ∈ entries, IsFieldEntry name e)

/-- A document that writes a schema: nothing or a mapping of commands. -/
def IsDocument (v : Yaml.Value) : Prop :=
  v = .null ∨ ∃ entries, v = .mapping entries ∧ ∀ e ∈ entries, IsCommandEntry e

/-! ## What is written -/

/-- An entry writes the field of its specification under its flag. -/
inductive FieldEntry (command : String) : Yaml.Value × Yaml.Value → Field → Prop where
  | mk {flag spec : String} {f : Field} (isFlag : Schema.isFlag flag = true)
    (parsed : Field.parse command flag spec = .ok f) : FieldEntry command (.text flag, .text spec) f

/-- A mapping writes one field for each of its entries, in their order. -/
inductive FieldEntries (command : String) : Yaml.Value → List Field → Prop where
  | null : FieldEntries command .null []
  | mapping {entries : List (Yaml.Value × Yaml.Value)} {fields : List Field}
    (all : List.Forall₂ (FieldEntry command) entries fields) :
    FieldEntries command (.mapping entries) fields

/-- An entry writes the command of its name. -/
inductive CommandEntry : Yaml.Value × Yaml.Value → Command → Prop where
  | mk {name : String} {v : Yaml.Value} {fields : List Field}
    (isName : Text.isIdentifier name = true)
    (all : FieldEntries name v fields) : CommandEntry (.text name, v) ⟨name, fields⟩

/-- A mapping writes one command for each of its entries, in their order. -/
inductive Document : Yaml.Value → Schema → Prop where
  | null : Document .null ⟨[]⟩
  | mapping {entries : List (Yaml.Value × Yaml.Value)} {commands : List Command}
    (all : List.Forall₂ CommandEntry entries commands) : Document (.mapping entries) ⟨commands⟩

/-! ## Faults -/

/-- The fault of an entry that writes no field. -/
inductive FieldFault (command : String) : Yaml.Value × Yaml.Value → ParseError → Prop where
  | key {k v : Yaml.Value} (other : ∀ t, k ≠ .text t) :
    FieldFault command (k, v) (.shape (.flagKey k.description))
  | flag {flag : String} {v : Yaml.Value} (notFlag : Schema.isFlag flag = false) :
    FieldFault command (.text flag, v) (.shape (.flag flag command))
  | kind {flag : String} {v : Yaml.Value} (isFlag : Schema.isFlag flag = true)
    (other : ∀ t, v ≠ .text t) :
    FieldFault command (.text flag, v) (.shape (.spec flag command v.description))
  | grammar {flag spec : String} (isFlag : Schema.isFlag flag = true)
    (unparsed : ¬ ∃ f, Field.parse command flag spec = .ok f) :
    FieldFault command (.text flag, .text spec) (.spec ⟨command, flag, spec⟩)

/-- The fault of a value that writes no fields. -/
inductive FieldsFault (command : String) : Yaml.Value → ParseError → Prop where
  | kind {v : Yaml.Value} (some : v ≠ .null) (other : ∀ entries, v ≠ .mapping entries) :
    FieldsFault command v (.shape (.flags command v.description))
  | entry {entries : List (Yaml.Value × Yaml.Value)} {e : ParseError}
    (first : FirstFails (IsFieldEntry command) (FieldFault command) entries e) :
    FieldsFault command (.mapping entries) e

/-- The fault of an entry that writes no command. -/
inductive CommandFault : Yaml.Value × Yaml.Value → ParseError → Prop where
  | key {k v : Yaml.Value} (other : ∀ t, k ≠ .text t) :
    CommandFault (k, v) (.shape (.commandKey k.description))
  | name {name : String} {v : Yaml.Value} (notName : Text.isIdentifier name = false) :
    CommandFault (.text name, v) (.shape (.commandName name))
  | fields {name : String} {v : Yaml.Value} {e : ParseError}
    (isName : Text.isIdentifier name = true) (fault : FieldsFault name v e) :
    CommandFault (.text name, v) e

/-- The fault of a document that writes no schema. -/
inductive DocumentFault : Yaml.Value → ParseError → Prop where
  | kind {v : Yaml.Value} (some : v ≠ .null) (other : ∀ entries, v ≠ .mapping entries) :
    DocumentFault v (.shape (.root v.description))
  | entry {entries : List (Yaml.Value × Yaml.Value)} {e : ParseError}
    (first : FirstFails IsCommandEntry CommandFault entries e) : DocumentFault (.mapping entries) e

namespace Schema

/-! ## Fields -/

theorem isFlag_iff {flag : String} :
    isFlag flag = true ↔ flag ≠ "" ∧ ∀ c ∈ flag.toList, Text.isBlank c = false := by
  simp [isFlag]

theorem exists_fieldEntry_iff {command : String} {entry : Yaml.Value × Yaml.Value} :
    (∃ f, FieldEntry command entry f) ↔ IsFieldEntry command entry := by
  constructor
  · rintro ⟨f, ⟨hflag, hparse⟩⟩
    obtain ⟨hne, hblank⟩ := isFlag_iff.1 hflag
    exact ⟨_, _, rfl, hne, hblank, f, hparse⟩
  · rintro ⟨flag, spec, rfl, hne, hblank, f, hparse⟩
    exact ⟨f, isFlag_iff.2 ⟨hne, hblank⟩, hparse⟩

theorem readField_eq_ok_iff {command : String} {entry : Yaml.Value × Yaml.Value} {f : Field} :
    readField command entry = .ok f ↔ FieldEntry command entry f := by
  obtain ⟨key, v⟩ := entry
  constructor
  · intro h
    unfold readField at h
    split at h
    · next flag v' heq =>
      cases heq
      split at h
      · cases h
      · next hflag =>
        split at h
        · exact .mk (by simpa using hflag) (mapError_eq_ok_iff.1 h)
        · cases h
    · cases h
  · rintro ⟨hflag, hparse⟩
    simp [readField, hflag, hparse, mapError_ok]

theorem readField_eq_error_iff {command : String} {entry : Yaml.Value × Yaml.Value}
    {e : ParseError} :
    readField command entry = .error e ↔ FieldFault command entry e := by
  obtain ⟨key, v⟩ := entry
  constructor
  · intro h
    unfold readField at h
    split at h
    · next flag v' heq =>
      cases heq
      split at h
      · next hflag =>
        cases h
        exact .flag (by simpa using hflag)
      · next hflag =>
        split at h
        · obtain ⟨e, he, rfl⟩ := mapError_eq_error_iff.1 h
          obtain ⟨hnone, rfl⟩ := Field.parse_eq_error_iff.1 he
          exact .grammar (by simpa using hflag) hnone
        · next hother =>
          cases h
          exact .kind (by simpa using hflag) fun t ht => hother t ht
    · next hother heq =>
      cases heq
      cases h
      exact .key fun t ht => hother t ht
  · intro h
    cases h with
    | key other =>
      cases key with
      | text t => exact absurd rfl (other t)
      | _ => rfl
    | flag notFlag => simp [readField, notFlag]
    | kind isFlag other =>
      cases v with
      | text t => exact absurd rfl (other t)
      | _ => simp [readField, isFlag]
    | grammar isFlag unparsed =>
      have hparse := Field.parse_eq_error_iff.2 ⟨unparsed, rfl⟩
      simp [readField, isFlag, hparse, mapError_error]

/-! ## Mappings of fields -/

theorem exists_fieldEntries_iff {command : String} {v : Yaml.Value} :
    (∃ fields, FieldEntries command v fields) ↔
      v = .null ∨ ∃ entries, v = .mapping entries ∧ ∀ e ∈ entries, IsFieldEntry command e := by
  simp only [← exists_fieldEntry_iff, ← exists_forall₂_iff]
  constructor
  · rintro ⟨fields, hall⟩
    cases hall with
    | null => exact .inl rfl
    | mapping all => exact .inr ⟨_, rfl, fields, all⟩
  · rintro (rfl | ⟨entries, rfl, fields, all⟩)
    · exact ⟨[], .null⟩
    · exact ⟨fields, .mapping all⟩

/-- A mapping of fields fails as its first entry that writes none. -/
theorem mapM_readField_eq_error_iff {command : String} {entries : List (Yaml.Value × Yaml.Value)}
    {e : ParseError} :
    entries.mapM (readField command) = .error e ↔
      FirstFails (IsFieldEntry command) (FieldFault command) entries e := by
  simp only [mapM_eq_error_iff, readField_eq_ok_iff, readField_eq_error_iff, exists_fieldEntry_iff]

theorem readFields_eq_ok_iff {command : String} {v : Yaml.Value} {fields : List Field} :
    readFields command v = .ok fields ↔ FieldEntries command v fields := by
  constructor
  · intro h
    unfold readFields at h
    split at h
    · refine .mapping ?_
      simpa only [mapM_eq_ok_iff, readField_eq_ok_iff] using h
    · cases h
      exact .null
    · cases h
  · intro h
    cases h with
    | null => rfl
    | mapping all =>
      show List.mapM (readField command) _ = _
      simpa only [mapM_eq_ok_iff, readField_eq_ok_iff] using all

theorem readFields_eq_error_iff {command : String} {v : Yaml.Value} {e : ParseError} :
    readFields command v = .error e ↔ FieldsFault command v e := by
  constructor
  · intro h
    unfold readFields at h
    split at h
    · exact .entry (mapM_readField_eq_error_iff.1 h)
    · cases h
    · next hmapping hnull =>
      cases h
      exact .kind hnull hmapping
  · intro h
    cases h with
    | kind some other =>
      cases v with
      | null => exact absurd rfl some
      | mapping entries => exact absurd rfl (other entries)
      | _ => rfl
    | entry first => exact mapM_readField_eq_error_iff.2 first

/-! ## Commands -/

theorem exists_commandEntry_iff {entry : Yaml.Value × Yaml.Value} :
    (∃ c, CommandEntry entry c) ↔ IsCommandEntry entry := by
  constructor
  · rintro ⟨c, ⟨hname, hall⟩⟩
    exact ⟨_, rfl, isIdentifier_iff.1 hname, exists_fieldEntries_iff.1 ⟨_, hall⟩⟩
  · obtain ⟨key, v⟩ := entry
    rintro ⟨name, rfl, hname, hv⟩
    obtain ⟨fields, hall⟩ := exists_fieldEntries_iff.2 hv
    exact ⟨⟨name, fields⟩, .mk (isIdentifier_iff.2 hname) hall⟩

theorem readCommand_eq_ok_iff {entry : Yaml.Value × Yaml.Value} {c : Command} :
    readCommand entry = .ok c ↔ CommandEntry entry c := by
  obtain ⟨key, v⟩ := entry
  constructor
  · intro h
    unfold readCommand at h
    split at h
    · next name v' heq =>
      cases heq
      split at h
      · next hname =>
        obtain ⟨fields, hfields, rfl⟩ := map_eq_ok_iff.1 h
        exact .mk hname (readFields_eq_ok_iff.1 hfields)
      · cases h
    · cases h
  · rintro ⟨hname, hall⟩
    simp [readCommand, hname, readFields_eq_ok_iff.2 hall, Except.map]

theorem readCommand_eq_error_iff {entry : Yaml.Value × Yaml.Value} {e : ParseError} :
    readCommand entry = .error e ↔ CommandFault entry e := by
  obtain ⟨key, v⟩ := entry
  constructor
  · intro h
    unfold readCommand at h
    split at h
    · next name v' heq =>
      cases heq
      split at h
      · next hname => exact .fields hname (readFields_eq_error_iff.1 (map_eq_error_iff.1 h))
      · next hname =>
        cases h
        exact .name (by simpa using hname)
    · next hother heq =>
      cases heq
      cases h
      exact .key fun t ht => hother t ht
  · intro h
    cases h with
    | key other =>
      cases key with
      | text t => exact absurd rfl (other t)
      | _ => rfl
    | name notName => simp [readCommand, notName]
    | fields isName fault =>
      simp [readCommand, isName, readFields_eq_error_iff.2 fault, Except.map]

/-! ## Documents -/

/-- A document fails as its first entry that writes no command. -/
theorem mapM_readCommand_eq_error_iff {entries : List (Yaml.Value × Yaml.Value)} {e : ParseError} :
    entries.mapM readCommand = .error e ↔ FirstFails IsCommandEntry CommandFault entries e := by
  simp only [mapM_eq_error_iff, readCommand_eq_ok_iff, readCommand_eq_error_iff,
    exists_commandEntry_iff]

theorem exists_document_iff {v : Yaml.Value} : (∃ s, Document v s) ↔ IsDocument v := by
  simp only [IsDocument, ← exists_commandEntry_iff, ← exists_forall₂_iff]
  constructor
  · rintro ⟨s, hs⟩
    cases hs with
    | null => exact .inl rfl
    | mapping all => exact .inr ⟨_, rfl, _, all⟩
  · rintro (rfl | ⟨entries, rfl, commands, all⟩)
    · exact ⟨⟨[]⟩, .null⟩
    · exact ⟨⟨commands⟩, .mapping all⟩

theorem ofYaml_eq_ok_iff {v : Yaml.Value} {s : Schema} : ofYaml v = .ok s ↔ Document v s := by
  constructor
  · intro h
    unfold ofYaml at h
    split at h
    · obtain ⟨commands, hcommands, rfl⟩ := map_eq_ok_iff.1 h
      refine .mapping ?_
      simpa only [mapM_eq_ok_iff, readCommand_eq_ok_iff] using hcommands
    · cases h
      exact .null
    · cases h
  · intro h
    cases h with
    | null => rfl
    | @mapping entries commands all =>
      have hcommands : entries.mapM readCommand = .ok commands := by
        simpa only [mapM_eq_ok_iff, readCommand_eq_ok_iff] using all
      simp [ofYaml, hcommands, Except.map]

theorem ofYaml_eq_error_iff {v : Yaml.Value} {e : ParseError} :
    ofYaml v = .error e ↔ DocumentFault v e := by
  constructor
  · intro h
    unfold ofYaml at h
    split at h
    · exact .entry (mapM_readCommand_eq_error_iff.1 (map_eq_error_iff.1 h))
    · cases h
    · next hmapping hnull =>
      cases h
      exact .kind hnull hmapping
  · intro h
    cases h with
    | kind some other =>
      cases v with
      | null => exact absurd rfl some
      | mapping entries => exact absurd rfl (other entries)
      | _ => rfl
    | entry first =>
      simp [ofYaml, mapM_readCommand_eq_error_iff.2 first, Except.map]

/-- A text whose value writes a schema is read as that schema, entry by entry, and no other text is
read. The error is the fault of the first entry that has one. -/
theorem parse_document {text : String} {v : Yaml.Value} (h : Yaml.Value.read? text = some v) :
    ((∃ s, parse text = .ok s) ↔ IsDocument v) ∧
      (∀ s, parse text = .ok s ↔ Document v s) ∧
      ∀ e, parse text = .error e ↔ DocumentFault v e := by
  have hparse : parse text = ofYaml v := by rw [parse, h]
  rw [hparse]
  refine ⟨?_, fun s => ofYaml_eq_ok_iff, fun e => ofYaml_eq_error_iff⟩
  simp only [ofYaml_eq_ok_iff, exists_document_iff]

/-- A document whose second command has a flag that holds white space. -/
def blankFlagText : String :=
  "a:\n  -u: string u?[] = \"x\"\nb:\n  -n: int n\n  \"-x y\": 3\n3: {}\n"

/-- That flag is the fault of the document. The first command is written, and neither the
specification of the flag nor the third command counts. -/
theorem parse_document_blank_flag : ∃ v, Yaml.Value.read? blankFlagText = some v ∧
    ¬ IsDocument v ∧ DocumentFault v (.shape (.flag "-x y" "b")) := by
  obtain ⟨v, hv⟩ := Option.isSome_iff_exists.1 (by decide +kernel :
    (Yaml.Value.read? blankFlagText).isSome)
  have herror : parse blankFlagText = .error (.shape (.flag "-x y" "b")) := by decide +kernel
  obtain ⟨hread, -, hfault⟩ := parse_document hv
  refine ⟨v, hv, fun hdocument => ?_, (hfault _).1 herror⟩
  obtain ⟨s, hs⟩ := hread.2 hdocument
  rw [herror] at hs
  cases hs

end Schema

end CommandSchema
