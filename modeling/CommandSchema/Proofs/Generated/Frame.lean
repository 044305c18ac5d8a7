import CommandSchema.Generated.Frame
import CommandSchema.Proofs.Generated.Reading
import CommandSchema.Proofs.Schema.Lookup
import CommandSchema.Proofs.Text.Words

/-!
# What generated files share

The names in generated code can be told from the text around them, and the lines that open a file
are not the signature of a function.

* `FieldType.shown`: the type that an expression tells.
* `Command.IsWritten.isName_recordName`, `Field.IsWritten.isName_name`: records and members have
  names.
* `lacks_inclusion`, `lacks_namespaceStart`: the lines that open a file.
-/

namespace CommandSchema

/-- The type that the expression of a type tells: a foreign value is handed over as a text. -/
def FieldType.shown : FieldType → FieldType
  | .foreign _ => .string
  | other => other

open Text

/-! ## Names -/

theorem Command.IsWritten.isName_recordName {c : Command} (h : c.IsWritten) :
    IsName c.recordName :=
  isName_of_isAlphanum (isAlphanum_of_mem_pascal h.name)

/-- The name of a record does not start with a small letter, so it is no keyword. -/
theorem Command.IsWritten.recordName_not_mem {c : Command} (h : c.IsWritten) {words : List String}
    (hwords : ∀ name ∈ words, name.toList.head?.any Char.isLower = true) :
    c.recordName ∉ words := by
  intro hm
  have hlower := hwords _ hm
  cases hs : c.recordName.toList with
  | nil => simp [hs] at hlower
  | cons d ds =>
    rw [hs, List.head?_cons, Option.any_some, head_pascal_not_lower h.name hs] at hlower
    cases hlower

theorem Field.IsWritten.isName_name {f : Field} (h : f.IsWritten) : IsName f.name := by
  obtain ⟨c, cs, hs, hc, hcs⟩ := h.name
  refine isName_of_isAlphanum fun d hd => ?_
  rw [hs] at hd
  obtain rfl | hd := List.mem_cons.1 hd
  · exact isAlphanum_of_isAlpha hc
  · exact hcs d hd

namespace Generated

open Layout

/-- A line that starts with a name is not indented. -/
theorem unindent_name {name : String} (h : IsName name) {c : Char} (hc : c ≠ ' ')
    (cs : List Char) :
    unindent (name.toList ++ ' ' :: c :: cs) = name.toList ++ ' ' :: c :: cs := by
  cases hs : name.toList with
  | nil => simp [unindent, hc]
  | cons d ds =>
    have hd : d ≠ ' ' := by
      rintro rfl
      exact h.not_mem (c := ' ') (by decide) (by simp [hs])
    simp [unindent, hd]

/-! ## The lines that open a file -/

theorem lacks_inclusion {line : List Char} (h : line.head? ≠ some '#') (header : String) :
    Lacks line [inclusion header] := by
  have hfills : FillsLine ("#include " ++ quote header) := by
    refine fillsLine_append (by decide) (fillsLine_of_getLast? (newline_not_mem_quote _) ?_
      (by decide : isBlank '\x22' = false))
    rw [toList_quote, List.getLast?_append]
    rfl
  refine lacks_line hfills fun he => h ?_
  rw [he, String.toList_append]
  rfl

theorem lacks_namespaceStart {line : List Char} (h : line.head? ≠ some 'n') {name : String}
    (hn : '\n' ∉ name.toList) : Lacks line [namespaceStart name] := by
  have hfills : FillsLine ("namespace " ++ name ++ " \x7b") :=
    fillsLine_of_getLast? (c := '\x7b') (by simp [hn]) (getLast?_toList_append _ (by decide))
      (by decide)
  refine lacks_line hfills fun he => h ?_
  rw [he, String.toList_append, String.toList_append, List.append_assoc]
  rfl

end Generated

end CommandSchema
