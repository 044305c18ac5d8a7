import CommandSchema.Proofs.Generated.Bodies

/-!
# The blocks of the generated files

The members of a record, and those of the options of a command, stand in a block under the line
that introduces it.

* `blocksAfter_struct`: the records of the header with the declarations of their members.
* `blocksAfter_interface`, `readAs_interface`: the types of options in the declarations with their
  members.
* `nodup_optionsNames`: the names of these types are distinct.
-/

namespace CommandSchema.Generated

open Layout Text

variable {s : Schema} {c : Command} {f : Field}

/-! ## Lines without their indentation -/

/-- The first character of a text that goes on. -/
theorem head_append {a : String} (h : a.toList.head?.any (· ≠ ' ') = true) (b : String) :
    (a ++ b).toList.head?.any (· ≠ ' ') = true := by
  obtain ⟨c, cs, hcs, hc⟩ := exists_cons_of_head h
  simpa [hcs] using hc

theorem head_typeName (h : f.IsWritten) : f.type.name.toList.head?.any (· ≠ ' ') = true := by
  have hname := h.typeName
  unfold isIdentifier at hname
  split at hname
  · cases hname
  · next c cs hcs =>
    have hne : c ≠ ' ' := by
      rintro rfl
      exact absurd (Bool.and_eq_true_iff.1 hname).1 (by decide)
    simpa [hcs] using hne

theorem head_cppType (h : f.IsWritten) : f.cppType.toList.head?.any (· ≠ ' ') = true := by
  have htype : f.type.cppType.toList.head?.any (· ≠ ' ') = true := by
    unfold FieldType.cppType
    split
    · decide
    · exact head_typeName h
  unfold Field.cppType
  split_ifs
  · exact head_append (head_append (by decide) _) _
  · exact head_append (head_append (by decide) _) _
  · exact htype

theorem head_declaration (h : f.IsWritten) : f.declaration.toList.head?.any (· ≠ ' ') = true := by
  obtain ⟨rest, hdeclaration, -⟩ := Field.declaration_eq f
  rw [hdeclaration]
  exact head_append (head_append (head_append (head_cppType h) _) _) _

theorem head_memberText (h : f.IsWritten) : f.memberText.toList.head?.any (· ≠ ' ') = true := by
  have hname : f.name.toList.head?.any (· ≠ ' ') = true := by
    obtain ⟨c, cs, hcs, hc, -⟩ := h.name
    have hne : c ≠ ' ' := by
      rintro rfl
      exact absurd hc (by decide)
    simpa [hcs] using hne
  exact head_append (head_append (head_append hname _) _) _

/-- Inside a block, no line starts as those outside of it. -/
theorem after?_lineAt {introductions : List String}
    (hspace : ∀ i ∈ introductions, Clash i.toList [' ']) (item : String) :
    after? introductions (lineAt 1 item) = none :=
  after?_append_eq_none hspace (' ' :: item.toList)

/-- Behind its indentation, a line is found as it was written. -/
theorem unindentBlock_lineAt {opening : String} {items : List String}
    (h : ∀ item ∈ items, item.toList.head?.any (· ≠ ' ') = true) :
    unindentBlock (opening, items.map (lineAt 1)) = (opening, items) := by
  have hitem : ∀ item ∈ items, String.ofList (dropIndent (lineAt 1 item)) = item := by
    intro item hitem
    have hself := dropIndent_append (h item hitem) []
    rw [List.append_nil] at hself
    rw [lineAt, dropIndent_replicate, hself, String.ofList_toList]
  rw [unindentBlock, List.map_map]
  exact congrArg _ ((List.map_congr_left hitem).trans (List.map_id items))

/-! ## Records -/

/-- A record is taken with its members. -/
theorem shows_blocks_record (hc : c.IsWritten) :
    Shows (.blocksAfter ["struct "] rfl) (record c)
      [(structRest c, (c.fields.map (·.declaration)).map (lineAt 1))] := by
  have hfills := fillsLine_struct hc
  have hhead : ("struct " ++ structRest c).toList.head? ≠ some ' ' := by simp
  by_cases hf : c.fields = []
  · rw [record_of_nil hf, hf]
    exact shows_line_entry hfills hhead (after?_append _)
  · have hitems : ∀ item ∈ c.fields.map (·.declaration), FillsLine item := by
      intro item hitem
      obtain ⟨f, hf, rfl⟩ := List.mem_map.1 hitem
      exact Field.fillsLine_declaration (hc.fields f hf)
    have hend : FillsLine "\x7d;" := fillsLine_of_getLast? (c := ';') (by decide) rfl (by decide)
    rw [record_of_ne_nil hf]
    exact shows_block_entry hfills hitems hend hhead (by decide)
      (fun item _ => after?_lineAt (by decide) item) (by decide) (after?_append _)

/-- The records of the header are those of the commands, each with its members. -/
theorem blocksAfter_struct (hs : s.IsWritten) (config : Config) :
    ReadAs config (headerBody s) (header s config) (blocksAfter ["struct "])
      (s.commands.map fun c => (structRest c, c.fields.map (·.declaration))) := by
  have henum : Shows (.after ["struct "] rfl) [.line "enum SortType \x7b kTime, kCost \x7d;"] [] :=
    ⟨rfl, by decide, by decide⟩
  have hunion : Shows (.after ["struct "] rfl) (union s) [] :=
    shows_after_union hs (by decide) (by decide)
  have hparsers : Shows (.after ["struct "] rfl) parserDeclarations [] :=
    parserDeclarationsSpelling.shows rfl (by decide) (by decide)
  have hbody : Shows (.blocksAfter ["struct "] rfl) (headerBody s) _ :=
    shows_headerBody henum.ofBlocks (fun c hc => shows_blocks_record (hs.commands c hc))
      hunion.ofBlocks hparsers.ofBlocks
  rw [List.append_nil, List.append_nil, List.nil_append, ← List.map_eq_flatMap] at hbody
  have hread := (framed_header s config).blocksAfter (by decide) hbody
  have hblocks : (s.commands.map fun c => (structRest c, (c.fields.map (·.declaration)).map
      (lineAt 1))).map unindentBlock =
        s.commands.map fun c => (structRest c, c.fields.map (·.declaration)) := by
    rw [List.map_map]
    refine List.map_congr_left fun c hc => unindentBlock_lineAt fun item hitem => ?_
    obtain ⟨f, hf, rfl⟩ := List.mem_map.1 hitem
    exact head_declaration ((hs.commands c hc).fields f hf)
  rwa [hblocks] at hread

/-! ## Options -/

/-- The type of the options of a command is taken with its members. -/
theorem shows_blocks_optionsInterface (hc : c.IsWritten) :
    Shows (.blocksAfter ["interface "] rfl) (optionsInterface c)
      [(c.optionsName ++ " \x7b", (c.fields.map (·.memberText)).map (lineAt 1))] := by
  have hfills := fillsLine_interface hc
  have hitems : ∀ item ∈ c.fields.map (·.memberText), FillsLine item := by
    intro item hitem
    obtain ⟨f, hf, rfl⟩ := List.mem_map.1 hitem
    exact Field.fillsLine_memberText (hc.fields f hf)
  rw [String.append_assoc] at hfills
  rw [optionsInterface_eq, String.append_assoc]
  exact shows_block_entry hfills hitems fillsLine_closing (by simp) (by decide)
    (fun item _ => after?_lineAt (by decide) item) (by decide) (after?_append _)

/-- The types of options in the declarations are those of the commands with fields, each with its
members. -/
theorem blocksAfter_interface (hs : s.IsWritten) (config : Config) :
    ReadAs config (declarationsBody s) (declarations s config) (blocksAfter ["interface "])
      ((s.commands.filter fun c => !c.fields.isEmpty).map
        fun c => (c.optionsName ++ " \x7b", c.fields.map (·.memberText))) := by
  have haliases : Shows (.after ["interface "] rfl) typeAliases [] :=
    typeAliasesSpelling.shows rfl (by decide) (by decide)
  have hsignature : ∀ c ∈ s.commands, Shows (.after ["interface "] rfl) [.line c.signature] [] := by
    intro c hc
    have hline : after? ["interface "] ("export function " ++ signatureRest c).toList = none := by
      rw [String.toList_append]
      exact after?_append_eq_none (by decide) _
    have hread : Shows (.after ["interface "] rfl) [.line c.signature] _ :=
      shows_after_signature (hs.commands c hc)
    rwa [hline] at hread
  have hbody : Shows (.blocksAfter ["interface "] rfl) (declarationsBody s) _ :=
    shows_declarationsBody haliases.ofBlocks
      (fun c hc => shows_blocks_optionsInterface (hs.commands c hc))
      (fun c hc => (hsignature c hc).ofBlocks)
  have hnone : s.commands.flatMap
      (fun _ => ([] : List (String × List (List Char)))) = [] :=
    List.flatMap_eq_nil_iff.2 fun _ _ => rfl
  rw [hnone, List.append_nil, List.nil_append, ← List.map_eq_flatMap] at hbody
  have hread := (framed_declarations s config).blocksAfter (by decide) hbody
  have hblocks : ((s.commands.filter fun c => !c.fields.isEmpty).map fun c =>
      (c.optionsName ++ " \x7b", (c.fields.map (·.memberText)).map (lineAt 1))).map unindentBlock =
        (s.commands.filter fun c => !c.fields.isEmpty).map
          fun c => (c.optionsName ++ " \x7b", c.fields.map (·.memberText)) := by
    rw [List.map_map]
    refine List.map_congr_left fun c hc => unindentBlock_lineAt fun item hitem => ?_
    obtain ⟨f, hf, rfl⟩ := List.mem_map.1 hitem
    exact head_memberText ((hs.commands c (List.mem_of_mem_filter hc)).fields f hf)
  rwa [hblocks] at hread

/-- The types of options have names of their own, since records do. -/
theorem nodup_optionsNames (h : (s.commands.map (·.recordName)).Nodup) :
    ((s.commands.filter fun c => !c.fields.isEmpty).map (·.optionsName)).Nodup := by
  have hmap : (s.commands.filter fun c => !c.fields.isEmpty).map (·.optionsName) =
      ((s.commands.filter fun c => !c.fields.isEmpty).map (·.recordName)).map
        (· ++ "Options") := by
    rw [List.map_map]
    rfl
  rw [hmap]
  exact (h.sublist (List.filter_sublist.map _)).map fun _ _ => (String.append_left_inj _).1

/-- A reading of members gives those of every command with fields, under the name of the type of its
options. -/
theorem readAs_interface {α : Type} (hs : s.IsWritten) (config : Config) {read : String → α}
    {value : Field → α} (hread : ∀ f : Field, f.IsWritten → read f.memberText = value f) :
    ReadAs config (declarationsBody s) (declarations s config)
      (fun text => (blocksAfter ["interface "] text).map fun b =>
        (leadingName b.1, b.2.map read))
      ((s.commands.filter fun c => !c.fields.isEmpty).map
        fun c => (c.optionsName, c.fields.map value)) := by
  refine (blocksAfter_interface hs config).map (List.map _) ?_
  rw [List.map_map]
  refine List.map_congr_left fun c hc => ?_
  have hw := hs.commands c (List.mem_of_mem_filter hc)
  have hmembers : (c.fields.map (·.memberText)).map read = c.fields.map value := by
    rw [List.map_map]
    exact List.map_congr_left fun f hf => hread f (hw.fields f hf)
  rw [Function.comp_apply, leadingName_append (isName_optionsName hw) (by decide), hmembers]

end CommandSchema.Generated
