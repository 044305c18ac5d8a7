import CommandSchema.Proofs.Generated.Blocks

/-!
# The types that the header names

The members of the records, the union and the parsers name types that the header does not declare:
those of the host program and foreign ones. A record of the same name would be taken for them.

* `namesIn`: the names in a text.
* `memberTypes`, `wrapperTypes`: the types that a header names, read from its text.
* `Field.NamesType`: the declaration of a field names a type.
* `NoCapture`: no record is taken for another type.
* `namesTypes_of_load`: which records of a loaded schema are named as types, and when none is.
-/

namespace CommandSchema

/-- The declaration of the field names a type: its own, or the one that it is wrapped in. -/
def Field.NamesType (f : Field) (name : String) : Prop :=
  name = f.type.name ∨ f.isArray = true ∧ name = "Vector" ∨
    f.isArray = false ∧ f.isOptional = true ∧ name = "Optional"

namespace Generated

open Layout Text

/-! ## Names in a text -/

/-- The names in a text: its longest parts of letters, digits and underscores. -/
def namesIn (text : String) : List String :=
  (filledPieces ' ' (text.toList.map fun c => if isIdentifierRest c then c else ' ')).map .ofList

theorem namesIn_append (a b : String) {c : Char} (hc : isIdentifierRest c = false) :
    namesIn (a ++ .singleton c ++ b) = namesIn a ++ namesIn b := by
  have htext : (a ++ .singleton c ++ b).toList = a.toList ++ c :: b.toList := by simp
  rw [namesIn, htext, List.map_append, List.map_cons, hc, if_neg Bool.false_ne_true,
    filledPieces_append_cons, List.map_append]
  rfl

theorem namesIn_of_isName {name : String} (h : IsName name) (hne : name ≠ "") :
    namesIn name = [name] := by
  have hself : name.toList.map (fun c => if isIdentifierRest c then c else ' ') = name.toList := by
    refine (List.map_congr_left fun c hc => ?_).trans (List.map_id _)
    rw [h c hc]
    rfl
  have hspace : ' ' ∉ name.toList := h.not_mem (by decide)
  have hfilled : name.toList ≠ [] := fun he => hne (String.toList_eq_nil_iff.1 he)
  rw [namesIn, hself, filledPieces_of_not_mem hspace hfilled, List.map_singleton,
    String.ofList_toList]

/-! ## The types of members -/

section Field

variable {f : Field}

theorem typeName_ne (h : f.IsWritten) : f.type.name ≠ "" := by
  intro he
  have hhead := head_typeName h
  simp [he] at hhead

theorem isName_typeName (h : f.IsWritten) : IsName f.type.name :=
  isIdentifierRest_of_mem h.typeName

theorem cppType_of_ne {t : FieldType} (h : t ≠ .string) : t.cppType = t.name := by
  unfold FieldType.cppType
  split
  · exact absurd rfl h
  · rfl

/-- The names in a type, without what it is wrapped in. -/
theorem mem_namesIn_type (h : f.IsWritten) {name : String}
    (hname : name ∉ ["std", "string"]) : name ∈ namesIn f.type.cppType ↔ name = f.type.name := by
  by_cases ht : f.type = .string
  · have hstd : namesIn FieldType.string.cppType = ["std", "string"] := by decide
    have hne : name ≠ FieldType.string.name := fun he => hname (he ▸ by decide)
    rw [ht, hstd]
    exact iff_of_false hname hne
  · rw [cppType_of_ne ht, namesIn_of_isName (isName_typeName h) (typeName_ne h),
      List.mem_singleton]

/-- The names in a declared type. -/
theorem mem_namesIn_cppType (h : f.IsWritten) {name : String}
    (hname : name ∉ ["std", "string"]) : name ∈ namesIn f.cppType ↔ f.NamesType name := by
  have htype := mem_namesIn_type h hname
  -- What a type is wrapped in is a name of its own, and the closing bracket ends the type.
  have hwrapped : ∀ wrapper, IsName wrapper → wrapper ≠ "" →
      (name ∈ namesIn (wrapper ++ "<" ++ f.type.cppType ++ ">") ↔
        name = wrapper ∨ name = f.type.name) := by
    intro wrapper hw hne
    have hsplit : wrapper ++ "<" ++ f.type.cppType ++ ">" =
        wrapper ++ .singleton '<' ++ (f.type.cppType ++ .singleton '>' ++ "") := by
      rw [String.append_empty, ← String.append_assoc]
      rfl
    have hempty : namesIn "" = [] := by decide
    rw [hsplit, namesIn_append _ _ (by decide), namesIn_append _ _ (by decide), hempty,
      List.append_nil, namesIn_of_isName hw hne, List.singleton_append, List.mem_cons, htype]
  cases ha : f.isArray with
  | true =>
    have htext : f.cppType = "Vector" ++ "<" ++ f.type.cppType ++ ">" := by
      rw [Field.cppType, if_pos ha]
      rfl
    rw [htext, hwrapped "Vector" (by simp [IsName, isIdentifierRest]) (by decide)]
    simp [Field.NamesType, ha, or_comm]
  | false =>
    cases ho : f.isOptional with
    | true =>
      have htext : f.cppType = "Optional" ++ "<" ++ f.type.cppType ++ ">" := by
        rw [Field.cppType, if_neg (by simp [ha]), if_pos ho]
        rfl
      rw [htext, hwrapped "Optional" (by simp [IsName, isIdentifierRest]) (by decide)]
      simp [Field.NamesType, ha, ho, or_comm]
    | false => simpa [Field.cppType, Field.NamesType, ha, ho] using htype

end Field

/-! ## The types in a header -/

/-- The type in the declaration of a member, which ends at the first space. -/
def memberType (declaration : String) : String :=
  .ofList (declaration.toList.takeWhile (· ≠ ' '))

/-- The types that the members of the records of a header name. -/
def memberTypes (header : String) : List String :=
  (blocksAfter ["struct "] header).flatMap fun b => b.2.flatMap fun d => namesIn (memberType d)

/-- The names in the union and in the declarations of the parsers. -/
def wrapperTypes (header : String) : List String :=
  (linesAfter ["using "] header).flatMap namesIn ++
    (blocksAfter ["auto parse ("] header).flatMap fun b => namesIn b.1 ++ b.2.flatMap namesIn

/-- The types of the host program that headers rely on, with the one that they declare. -/
def hostTypes : List String :=
  ["Date", "Instant", "Duration", "SortType", "Vector", "Optional", "Variant", "Result"]

/-- No record of a schema is taken for another type: none has the name of a host type or of a
foreign type in use, and the header names none where it names types. -/
structure NoCapture (s : Schema) (header : String) : Prop where
  host : ∀ c ∈ s.commands, c.recordName ∉ hostTypes
  foreign : ∀ c ∈ s.commands, ∀ d ∈ s.commands, ∀ f ∈ d.fields, f.type ≠ .foreign c.recordName
  members : ∀ c ∈ s.commands, c.recordName ∉ memberTypes header
  wrappers : ∀ c ∈ s.commands, c.recordName ∉ wrapperTypes header

section Header

variable {s : Schema} {c : Command}

theorem memberType_declaration {f : Field} (hf : f.IsWritten) :
    memberType f.declaration = f.cppType := by
  obtain ⟨rest, hdeclaration, -⟩ := Field.declaration_eq f
  have htext : f.declaration.toList = f.cppType.toList ++ ' ' :: (f.name ++ rest).toList := by
    simp [hdeclaration]
  rw [memberType, htext, takeWhile_append_of_not_mem (Field.space_not_mem_cppType hf),
    String.ofList_toList]

theorem memberTypes_header (hs : s.IsWritten) (config : Config) :
    ReadAs config (headerBody s) (header s config) memberTypes
      (s.commands.flatMap fun c => c.fields.flatMap fun f => namesIn f.cppType) := by
  refine (blocksAfter_struct hs config).map
    (List.flatMap fun b => b.2.flatMap fun d => namesIn (memberType d)) ?_
  rw [List.flatMap_map]
  refine List.flatMap_congr fun c hc => ?_
  rw [List.flatMap_map]
  refine List.flatMap_congr fun f hf => ?_
  rw [memberType_declaration ((hs.commands c hc).fields f hf)]

/-- The first line of the union is read among the lines of a header. -/
theorem linesAfter_using (hs : s.IsWritten) (config : Config) :
    ReadAs config (headerBody s) (header s config) (linesAfter ["using "])
      ["Command = Variant<"] := by
  have hrecord : ∀ c ∈ s.commands, Shows (.after ["using "] rfl) (record c) [] := by
    intro c hc
    have hread : Shows (.after ["using "] rfl) (record c) _ :=
      shows_after_record (hs.commands c hc) (by decide) (by decide)
    rwa [String.toList_append, after?_append_eq_none (by decide)] at hread
  have henum : Shows (.after ["using "] rfl) [.line "enum SortType \x7b kTime, kCost \x7d;"] [] :=
    ⟨rfl, by decide, by decide⟩
  have hunion : Shows (.after ["using "] rfl) (union s) _ :=
    shows_after_union hs (by decide) (by decide)
  have hparsers : Shows (.after ["using "] rfl) parserDeclarations [] :=
    parserDeclarationsSpelling.shows rfl (by decide) (by decide)
  have hbody := shows_headerBody henum hrecord hunion hparsers
  have hname : after? ["using "] "using Command = Variant<".toList = some "Command = Variant<" := by
    decide
  rw [List.flatMap_eq_nil_iff.2 fun _ _ => rfl, hname, List.append_nil, List.nil_append] at hbody
  exact (framed_header s config).linesAfter (by decide) hbody

/-- The declarations of the parsers are read with their results. -/
theorem blocksAfter_parse (hs : s.IsWritten) (config : Config) :
    ReadAs config (headerBody s) (header s config) (blocksAfter ["auto parse ("])
      [("std::string &str)", ["-> Result<Command, ParseException>;"]),
        ("const Vector<std::string_view> &argv)", ["-> Result<Command, ParseException>;"])] := by
  have henum : Shows (.after ["auto parse ("] rfl)
      [.line "enum SortType \x7b kTime, kCost \x7d;"] [] :=
    ⟨rfl, by decide, by decide⟩
  have hrecord : ∀ c ∈ s.commands, Shows (.after ["auto parse ("] rfl) (record c) [] := by
    intro c hc
    have hread : Shows (.after ["auto parse ("] rfl) (record c) _ :=
      shows_after_record (hs.commands c hc) (by decide) (by decide)
    rwa [String.toList_append, after?_append_eq_none (by decide)] at hread
  have hunion : Shows (.after ["auto parse ("] rfl) (union s) [] :=
    shows_after_union hs (by decide) (by decide)
  have hparsers : Shows (.blocksAfter ["auto parse ("] rfl) parserDeclarations
      [("std::string &str)", ["  -> Result<Command, ParseException>;".toList]),
        ("const Vector<std::string_view> &argv)",
          ["  -> Result<Command, ParseException>;".toList])] :=
    parserDeclarationsSpelling.shows rfl (by decide) (by decide)
  have hbody := shows_headerBody henum.ofBlocks (fun c hc => (hrecord c hc).ofBlocks)
    hunion.ofBlocks hparsers
  rw [List.flatMap_eq_nil_iff.2 fun _ _ => rfl, List.append_nil, List.append_nil,
    List.nil_append] at hbody
  have hread := (framed_header s config).blocksAfter (by decide) hbody
  have hresult : [("std::string &str)", ["  -> Result<Command, ParseException>;".toList]),
      ("const Vector<std::string_view> &argv)",
        ["  -> Result<Command, ParseException>;".toList])].map unindentBlock =
      [("std::string &str)", ["-> Result<Command, ParseException>;"]),
        ("const Vector<std::string_view> &argv)", ["-> Result<Command, ParseException>;"])] := by
    decide
  rwa [hresult] at hread

/-- The names that every header names there. -/
def wrapperNames : List String :=
  ["Command", "Variant", "std", "string", "str", "Result", "Command", "ParseException", "const",
    "Vector", "std", "string_view", "argv", "Result", "Command", "ParseException"]

theorem wrapperTypes_header (hs : s.IsWritten) (config : Config) :
    ReadAs config (headerBody s) (header s config) wrapperTypes wrapperNames := by
  have hvalue : ["Command = Variant<"].flatMap namesIn ++
      [("std::string &str)", ["-> Result<Command, ParseException>;"]),
        ("const Vector<std::string_view> &argv)", ["-> Result<Command, ParseException>;"])].flatMap
          (fun b => namesIn b.1 ++ b.2.flatMap namesIn) = wrapperNames := by
    decide
  have hunion := linesAfter_using hs config
  have hparsers := blocksAfter_parse hs config
  refine ⟨?_, fun hconfig => ?_⟩
  · rw [wrapperTypes, hunion.body, hparsers.body, hvalue]
  · rw [wrapperTypes, hunion.file hconfig, hparsers.file hconfig, hvalue]

end Header

/-! ## Records that are named as types -/

/-- The host types that a record can have the name of. -/
def unreservedTypes : List String :=
  ["Date", "Instant", "Duration", "Vector", "Optional", "Variant", "Result"]

/-- What a header names as types, among the records of a schema. -/
structure NamesTypes (s : Schema) (header : String) : Prop where
  /-- A record is named where a field is declared with a type of its name. -/
  members : ∀ c ∈ s.commands, c.recordName ∈ memberTypes header ↔
    ∃ d ∈ s.commands, ∃ f ∈ d.fields, f.NamesType c.recordName
  wrappers : ∀ c ∈ s.commands,
    c.recordName ∈ wrapperTypes header ↔ c.recordName ∈ ["Variant", "Result", "Vector"]
  noCapture : NoCapture s header ↔ ∀ c ∈ s.commands, c.recordName ∉ unreservedTypes ∧
    ∀ d ∈ s.commands, ∀ f ∈ d.fields, f.type ≠ .foreign c.recordName

section Records

variable {foreignTypes : List String} {s : Schema} {header : String}

/-- A type without a built-in name is the foreign type of its name. -/
theorem eq_foreign_of_name {t : FieldType} (h : t.name ∉ FieldType.builtinNames) :
    t = .foreign t.name := by
  cases t with
  | foreign name => rfl
  | _ => exact absurd (by simp [FieldType.name, FieldType.builtinNames]) h

/-- A record that a field names as a type has the name of a host type or of the field's foreign
type. -/
theorem of_namesType (hs : s.IsLoaded foreignTypes) {c : Command} (hc : c ∈ s.commands) {f : Field}
    (h : f.NamesType c.recordName) :
    c.recordName ∈ unreservedTypes ∨ f.type = .foreign c.recordName := by
  have hlower : c.recordName ∉ ["string", "int", "bool", "char"] :=
    (hs.written.commands c hc).recordName_not_mem (by decide)
  have hreserved := hs.rules.reservedRecords c hc
  have hcases : ∀ name ∈ FieldType.builtinNames, name ∈ ["string", "int", "bool", "char"] ∨
      name ∈ unreservedTypes ∨ name ∈ reservedRecordNames := by decide
  have hwrappers : ["Vector", "Optional"] ⊆ unreservedTypes := by decide
  obtain hname | ⟨-, hname⟩ | ⟨-, -, hname⟩ := h
  · by_cases hbuiltin : c.recordName ∈ FieldType.builtinNames
    · obtain hm | hm | hm := hcases _ hbuiltin
      · exact absurd hm hlower
      · exact .inl hm
      · exact absurd hm hreserved
    · rw [hname] at hbuiltin ⊢
      exact .inr (eq_foreign_of_name hbuiltin)
  · exact .inl (hname ▸ hwrappers (by simp))
  · exact .inl (hname ▸ hwrappers (by simp))

theorem namesTypes_of_eq (hs : s.IsLoaded foreignTypes)
    (hmembers : memberTypes header =
      s.commands.flatMap fun c => c.fields.flatMap fun f => namesIn f.cppType)
    (hwrappers : wrapperTypes header = wrapperNames) :
    NamesTypes s header := by
  have hmember : ∀ c ∈ s.commands, c.recordName ∈ memberTypes header ↔
      ∃ d ∈ s.commands, ∃ f ∈ d.fields, f.NamesType c.recordName := by
    intro c hc
    have hlower : c.recordName ∉ ["std", "string"] :=
      (hs.written.commands c hc).recordName_not_mem (by decide)
    rw [hmembers]
    simp only [List.mem_flatMap]
    constructor
    · rintro ⟨d, hd, f, hf, hm⟩
      exact ⟨d, hd, f, hf,
        (mem_namesIn_cppType ((hs.written.commands d hd).fields f hf) hlower).1 hm⟩
    · rintro ⟨d, hd, f, hf, hm⟩
      exact ⟨d, hd, f, hf,
        (mem_namesIn_cppType ((hs.written.commands d hd).fields f hf) hlower).2 hm⟩
  have hwrapper : ∀ c ∈ s.commands,
      c.recordName ∈ wrapperTypes header ↔ c.recordName ∈ ["Variant", "Result", "Vector"] := by
    intro c hc
    have hlower : c.recordName ∉ ["std", "string", "str", "const", "string_view", "argv"] :=
      (hs.written.commands c hc).recordName_not_mem (by decide)
    have hreserved := hs.rules.reservedRecords c hc
    have hcases : ∀ name ∈ wrapperNames, name ∈ ["Variant", "Result", "Vector"] ∨
        name ∈ ["std", "string", "str", "const", "string_view", "argv"] ∨
        name ∈ reservedRecordNames := by decide
    have hsub : ["Variant", "Result", "Vector"] ⊆ wrapperNames := by decide
    rw [hwrappers]
    refine ⟨fun hm => ?_, fun hm => hsub hm⟩
    obtain hm | hm | hm := hcases _ hm
    · exact hm
    · exact absurd hm hlower
    · exact absurd hm hreserved
  refine ⟨hmember, hwrapper, fun h c hc => ⟨fun hm => h.host c hc ?_, h.foreign c hc⟩, fun h => ?_⟩
  · have hsub : unreservedTypes ⊆ hostTypes := by decide
    exact hsub hm
  · refine ⟨fun c hc hm => ?_, fun c hc => (h c hc).2, fun c hc hm => ?_, fun c hc hm => ?_⟩
    · have hcases : ∀ name ∈ hostTypes, name ∈ unreservedTypes ∨ name ∈ reservedRecordNames := by
        decide
      exact (hcases _ hm).elim (h c hc).1 (hs.rules.reservedRecords c hc)
    · obtain ⟨d, hd, f, hf, hnames⟩ := (hmember c hc).1 hm
      exact (of_namesType hs hc hnames).elim (h c hc).1 ((h c hc).2 d hd f hf)
    · have hsub : ["Variant", "Result", "Vector"] ⊆ unreservedTypes := by decide
      exact (h c hc).1 (hsub ((hwrapper c hc).1 hm))

end Records

/-- In the header of a loaded schema, a record is named as a type exactly where a field is declared
with a type of its name, or where it has the name of a type that every header names. No record has
the name of `SortType`. So no record is taken for another type exactly if none has the name of one
of the other host types or of a foreign type in use. -/
theorem namesTypes_of_load {text : String} {config : Config} {s : Schema}
    (hs : Schema.load text config = .ok s) :
    (∀ c ∈ s.commands, c.recordName ≠ "SortType") ∧ NamesTypes s (bodies s).header ∧
      ∀ emission : Config, (∃ front back,
        (Artifacts.ofSchema s emission).header = front ++ (bodies s).header ++ back) ∧
        (emission.IsPlain → NamesTypes s (Artifacts.ofSchema s emission).header) := by
  have hl := Schema.isLoaded_of_load hs
  have hw := hl.written
  refine ⟨fun c hc he => hl.rules.reservedRecords c hc (he ▸ by decide), ?_, fun emission => ?_⟩
  · exact namesTypes_of_eq hl (memberTypes_header hw {}).body (wrapperTypes_header hw {}).body
  · have hparts := isPart_bodies hw hl.rules.nonempty emission
    refine ⟨?_, fun hplain => ?_⟩
    · rw [Artifacts.texts, Artifacts.texts, List.forall₂_cons] at hparts
      exact hparts.1
    · exact namesTypes_of_eq hl ((memberTypes_header hw emission).file hplain)
        ((wrapperTypes_header hw emission).file hplain)

/-- Records with other names capture nothing, whatever types the fields have. -/
theorem namesTypes_of_load_pay :
    let pay : Command := ⟨"pay", [⟨"-a", "amounts", .foreign "Money", false, true, none⟩,
      ⟨"-d", "day", .date, true, false, none⟩]⟩
    let s : Schema := ⟨[pay, ⟨"date_of", []⟩]⟩
    let config : Config := { foreignTypes := ["Money"] }
    Schema.load "pay:\n  -a: Money amounts[]\n  -d: Date day?\ndate_of: \x7b\x7d\n" config = .ok s ∧
      NoCapture s (Artifacts.ofSchema s config).header := by
  intro pay s config
  have hload : Schema.load "pay:\n  -a: Money amounts[]\n  -d: Date day?\ndate_of: \x7b\x7d\n"
      config = .ok s := Schema.load_of_toOption (by decide +kernel)
  obtain ⟨-, -, hfiles⟩ := namesTypes_of_load hload
  have hnamed := (hfiles config).2 (Config.isPlain_default _)
  exact ⟨hload, hnamed.noCapture.2 (by decide +kernel)⟩

/-- Of the names in use, only those that are reserved are kept from records: a record `Date` is
taken for the type of another record's member, and so is a record `Money` for the foreign type. -/
theorem not_noCapture :
    let trip : Command := ⟨"trip", [⟨"-d", "day", .date, false, false, none⟩]⟩
    let pay : Command := ⟨"pay", [⟨"-a", "amount", .foreign "Money", false, false, none⟩]⟩
    let date : Schema := ⟨[⟨"date", []⟩, trip]⟩
    let money : Schema := ⟨[⟨"money", []⟩, pay]⟩
    let config : Config := { foreignTypes := ["Money"] }
    (Schema.load "date: \x7b\x7d\ntrip:\n  -d: Date day\n" {} = .ok date ∧
      "Date" ∈ date.commands.map (·.recordName) ∧
      memberTypes (Artifacts.ofSchema date {}).header = ["Date"] ∧
      ¬ NoCapture date (Artifacts.ofSchema date {}).header) ∧
    Schema.load "money: \x7b\x7d\npay:\n  -a: Money amount\n" config = .ok money ∧
      "Money" ∈ money.commands.map (·.recordName) ∧
      memberTypes (Artifacts.ofSchema money config).header = ["Money"] ∧
      ¬ NoCapture money (Artifacts.ofSchema money config).header := by
  intro trip pay date money config
  have hdate : Schema.load "date: \x7b\x7d\ntrip:\n  -d: Date day\n" {} = .ok date :=
    Schema.load_of_toOption (by decide +kernel)
  have hmoney : Schema.load "money: \x7b\x7d\npay:\n  -a: Money amount\n" config = .ok money :=
    Schema.load_of_toOption (by decide +kernel)
  have hnoday : ¬ NoCapture date (Artifacts.ofSchema date {}).header := fun h =>
    h.host ⟨"date", []⟩ List.mem_cons_self (by decide +kernel)
  have hnoamount : ¬ NoCapture money (Artifacts.ofSchema money config).header := fun h => by
    have hforeign := h.foreign ⟨"money", []⟩ List.mem_cons_self pay
      (List.mem_cons_of_mem _ List.mem_cons_self) _ List.mem_cons_self
    exact hforeign (by decide +kernel)
  refine ⟨⟨hdate, by decide +kernel, ?_, hnoday⟩, hmoney, by decide +kernel, ?_, hnoamount⟩
  · have hread := (memberTypes_header (Schema.isLoaded_of_load hdate).written {}).file
      (Config.isPlain_default _)
    exact hread.trans (by decide +kernel)
  · have hread := (memberTypes_header (Schema.isLoaded_of_load hmoney).written config).file
      (Config.isPlain_default _)
    exact hread.trans (by decide +kernel)

end Generated

end CommandSchema
