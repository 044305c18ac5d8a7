import CommandSchema.Proofs.Schema.Rules
import CommandSchema.Proofs.Text.Quoted

/-!
# The violation that is reported

Of all broken rules the first one is reported, in the order of the scan: the foreign types, the
empty schema, the names of all commands, and only then their fields. The message quotes the names
that break it.

* `Schema.Blames`: the violation that a schema is blamed for.
* `Violation.names`: the names that a violation blames; `Violation.quotes_message`: the message
  quotes them.
* `Schema.verify_eq_error_iff`: a schema is blamed for what is reported.
* `Schema.verify_blames`: what a report says.
-/

namespace CommandSchema

/-! ## Statements -/

/-- The violation that a schema is blamed for: the first one of the scan. -/
inductive Schema.Blames (s : Schema) (foreignTypes : List String) : Violation → Prop where
  | foreign {v : Violation}
    (first : FirstFails (fun n => Text.isIdentifier n = true ∧ n ∉ FieldType.builtinNames)
      ForeignFault foreignTypes v) : Blames s foreignTypes v
  | noCommands
    (foreign : ∀ n ∈ foreignTypes, Text.isIdentifier n = true ∧ n ∉ FieldType.builtinNames)
    (empty : s.commands = []) : Blames s foreignTypes .noCommands
  | command {v : Violation}
    (foreign : ∀ n ∈ foreignTypes, Text.isIdentifier n = true ∧ n ∉ FieldType.builtinNames)
    (first : FirstFaults Command.NamesFit Command.NameFault s.commands v) : Blames s foreignTypes v
  /-- The names of all commands fit, also of those after the one with the field. -/
  | field {v : Violation}
    (foreign : ∀ n ∈ foreignTypes, Text.isIdentifier n = true ∧ n ∉ FieldType.builtinNames)
    (nonempty : s.commands ≠ []) (names : AllPass Command.NamesFit s.commands)
    (first : FirstFails (Command.KeepsRules foreignTypes)
      (fun c => FirstFaults (Field.Fits foreignTypes) (c.FieldFault foreignTypes) c.fields)
      s.commands v) : Blames s foreignTypes v

namespace Violation

/-- The violation is one of a field. -/
def IsOfField : Violation → Prop
  | .repeatedField .. | .keywordField .. | .sameLocal .. | .unknownType .. => True
  | _ => False

/-- The names that a violation blames, in the order of its message. -/
def names : Violation → List String
  | .foreignName name => [name]
  | .foreignBuiltin name => [name]
  | .noCommands => []
  | .sharedRecord earlier command record => [earlier, command, record]
  | .reservedRecord record command => [record, command]
  | .reservedExport name command => [name, command]
  | .repeatedField field command => [field, command]
  | .keywordField field command => [field, command]
  | .sameLocal earlier field command => [earlier, field, command]
  | .unknownType type field => [type, field]

/-! ## Messages -/

open Text

theorem quotes_one {before after : String} (n : String) (hbefore : '\x22' ∉ before.toList)
    (hafter : '\x22' ∉ after.toList) : Quotes (before ++ quote n ++ after) [n] :=
  .name n hbefore (.plain hafter)

theorem quotes_two {before between after : String} (m n : String) (hbefore : '\x22' ∉ before.toList)
    (hbetween : '\x22' ∉ between.toList) (hafter : '\x22' ∉ after.toList) :
    Quotes (before ++ quote m ++ between ++ quote n ++ after) [m, n] := by
  have h : Quotes (before ++ quote m ++ (between ++ quote n ++ after)) [m, n] :=
    .name m hbefore (quotes_one n hbetween hafter)
  simpa only [String.append_assoc] using h

theorem quotes_three {before first second after : String} (l m n : String)
    (hbefore : '\x22' ∉ before.toList) (hfirst : '\x22' ∉ first.toList)
    (hsecond : '\x22' ∉ second.toList) (hafter : '\x22' ∉ after.toList) :
    Quotes (before ++ quote l ++ first ++ quote m ++ second ++ quote n ++ after) [l, m, n] := by
  have h :
      Quotes (before ++ quote l ++ (first ++ quote m ++ second ++ quote n ++ after)) [l, m, n] :=
    .name l hbefore (quotes_two m n hfirst hsecond hafter)
  simpa only [String.append_assoc] using h

/-- The message quotes the names and has no other quotes. -/
theorem quotes_message (v : Violation) : Quotes v.message v.names := by
  have hempty : '\x22' ∉ "".toList := by decide
  cases v with
  | foreignName name => exact quotes_one name (by decide) (by decide)
  | foreignBuiltin name => exact quotes_one name (by decide) (by decide)
  | noCommands => exact .plain (by decide)
  | sharedRecord earlier command record =>
    have h : Quotes ("The commands " ++ quote earlier ++ " and " ++ quote command ++
        " both map to the record " ++ quote record ++ "") [earlier, command, record] :=
      quotes_three earlier command record (by decide) (by decide) (by decide) hempty
    rwa [String.append_empty] at h
  | reservedRecord record command =>
    exact quotes_two record command (by decide) (by decide) (by decide)
  | reservedExport name command =>
    exact quotes_two name command (by decide) (by decide) (by decide)
  | repeatedField field command =>
    have h : Quotes ("The field " ++ quote field ++ " is defined twice in command " ++
        quote command ++ "") [field, command] :=
      quotes_two field command (by decide) (by decide) hempty
    rwa [String.append_empty] at h
  | keywordField field command =>
    exact quotes_two field command (by decide) (by decide) (by decide)
  | sameLocal earlier field command =>
    exact quotes_three earlier field command (by decide) (by decide) (by decide) (by decide)
  | unknownType type field =>
    have h : Quotes ("The type " ++ quote type ++ " is not defined for field " ++
        quote field ++ "") [type, field] :=
      quotes_two type field (by decide) (by decide) hempty
    rwa [String.append_empty] at h

theorem quotes_message_iff {v : Violation} {names : List String} :
    Quotes v.message names ↔ names = v.names :=
  ⟨fun h => h.unique v.quotes_message, fun h => h ▸ v.quotes_message⟩

end Violation

/-! ## Reports -/

namespace Schema

variable {s : Schema} {foreignTypes : List String} {v : Violation}

theorem verify_eq_error_iff : s.verify foreignTypes = .error v ↔ s.Blames foreignTypes v := by
  simp only [verify, step_eq_error_iff, forM_eq_error_iff, forM_eq_ok_iff, checkForeign_eq_ok_iff,
    checkForeign_eq_error_iff, checkCommands_eq_ok_iff, checkCommands_eq_error_iff,
    Command.checkFields_eq_ok_iff, Command.checkFields_eq_error_iff]
  constructor
  · rintro (h | ⟨hf, (⟨hempty, rfl⟩ | h) | ⟨⟨hne, hnames⟩, h⟩⟩)
    · exact .foreign h
    · exact .noCommands hf hempty
    · exact .command hf h
    · exact .field hf hne hnames h
  · rintro (h | ⟨hf, hempty⟩ | ⟨hf, h⟩ | ⟨hf, hne, hnames, h⟩)
    · exact .inl h
    · exact .inr ⟨hf, .inl (.inl ⟨hempty, rfl⟩)⟩
    · exact .inr ⟨hf, .inl (.inr h)⟩
    · exact .inr ⟨hf, .inr ⟨⟨hne, hnames⟩, h⟩⟩

/-- No field is blamed while the names of a command do not fit, wherever that command stands. -/
theorem Blames.allPass_namesFit (h : s.Blames foreignTypes v) (hv : v.IsOfField) :
    AllPass Command.NamesFit s.commands := by
  cases h with
  | foreign first =>
    obtain ⟨_, _, _, _, _, hfault⟩ := first
    cases hfault <;> cases hv
  | noCommands => cases hv
  | command _ first =>
    obtain ⟨_, _, _, _, _, hfault⟩ := first
    cases hfault <;> cases hv
  | field _ _ names _ => exact names

/-- Fields that are blamed together have different names that are one in upper case. -/
theorem Blames.sameLocal {earlier field command : String}
    (h : s.Blames foreignTypes (.sameLocal earlier field command)) :
    earlier ≠ field ∧ Text.capitalize earlier = Text.capitalize field := by
  cases h with
  | foreign first =>
    obtain ⟨_, _, _, _, _, hfault⟩ := first
    cases hfault
  | command _ first =>
    obtain ⟨_, _, _, _, _, hfault⟩ := first
    cases hfault
  | field _ _ _ first =>
    obtain ⟨_, c, _, _, _, before, f, _, _, _, hfault⟩ := first
    cases hfault with
    | sameLocal fresh _ only =>
      obtain ⟨_, _, rfl, hlocal, -⟩ := only
      exact ⟨fresh _ (by simp), hlocal⟩

/-- A schema is blamed for what is reported, and for nothing else. The message quotes the names of
the violation and no others. A field is blamed only if the names of all commands fit. Two fields are
blamed for the case of a letter only if their names are one in upper case; of names that start with
a character of ASCII, this is all they differ in. -/
theorem verify_blames (s : Schema) (foreignTypes : List String) (v : Violation) :
    (s.verify foreignTypes = .error v ↔ s.Blames foreignTypes v) ∧
    (∀ names, Text.Quotes v.message names ↔ names = v.names) ∧
    (s.verify foreignTypes = .error v → v.IsOfField → AllPass Command.NamesFit s.commands) ∧
    ∀ earlier field command, s.verify foreignTypes = .error (.sameLocal earlier field command) →
      earlier ≠ field ∧ Text.capitalize earlier = Text.capitalize field ∧
        ∀ a as b bs, earlier.toList = a :: as → field.toList = b :: bs →
          a.toNat < 0x80 → b.toNat < 0x80 → as = bs ∧ a ≠ b ∧ a.toUpper = b.toUpper := by
  refine ⟨verify_eq_error_iff, fun _ => Violation.quotes_message_iff,
    fun h => (verify_eq_error_iff.1 h).allPass_namesFit, fun earlier field command h => ?_⟩
  obtain ⟨hne, hlocal⟩ := (verify_eq_error_iff.1 h).sameLocal
  refine ⟨hne, hlocal, fun a as b bs ha hb hasciia hasciib => ?_⟩
  simp only [Text.capitalize, ha, hb, Text.mapFirst, Text.upper, hasciia, hasciib, if_true,
    String.ofList_inj, List.singleton_append, List.cons.injEq] at hlocal
  refine ⟨hlocal.2, fun hab => hne (String.toList_inj.1 ?_), hlocal.1⟩
  rw [ha, hb, hab, hlocal.2]

/-- The reserved word of a later command is reported and not the keyword of a field before it;
without that command, it is the field. -/
theorem verify_blames_buy :
    let buy : Command := ⟨"buy", [⟨"-p", "price", .int, false, false, none⟩,
      ⟨"-q", "Price", .int, false, false, none⟩]⟩
    let command : Command := ⟨"command", []⟩
    let sell : Command := ⟨"sell", []⟩
    (⟨[buy, command]⟩ : Schema).Blames [] (.reservedRecord "Command" "command") ∧
      (⟨[buy, sell]⟩ : Schema).verify [] = .error (.sameLocal "price" "Price" "buy") ∧
      AllPass Command.NamesFit [buy, sell] ∧
      "price" ≠ "Price" ∧ Text.capitalize "price" = Text.capitalize "Price" := by
  intro buy command sell
  have hreserved : (⟨[buy, command]⟩ : Schema).verify [] =
      .error (.reservedRecord "Command" "command") := by decide +kernel
  have hlocal : (⟨[buy, sell]⟩ : Schema).verify [] = .error (.sameLocal "price" "Price" "buy") := by
    decide +kernel
  obtain ⟨-, -, hnames, hcase⟩ := verify_blames ⟨[buy, sell]⟩ [] (.sameLocal "price" "Price" "buy")
  obtain ⟨hne, hupper, -⟩ := hcase _ _ _ hlocal
  exact ⟨(verify_blames _ _ _).1.1 hreserved, hlocal, hnames hlocal trivial, hne, hupper⟩

end Schema

end CommandSchema
