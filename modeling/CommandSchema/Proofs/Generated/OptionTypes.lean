import CommandSchema.Proofs.Generated.Blocks
import CommandSchema.Proofs.Invocation.Kinds

/-!
# The declared types of options

The declarations for scripts say which options a command accepts: for every member whether it may be
left out, and the type of its values. Types are declared by aliases, each of which stands for values
of one kind.

* `declaredAliases`: the aliases of declarations; `kindsOf`: the kinds that they stand for.
* `optionsType?`: the members of a type of options, read from declarations.
* `HasType`: the values of such a type.
* `TypesOptions`: declarations give the options of a command the type of what the command accepts.
* `typesOptions_of_load`: the declarations of a loaded schema do so for all its commands.
-/

namespace CommandSchema.Generated

open Layout Text

/-! ## Aliases -/

/-- The types that need no declaration, with their kinds. -/
def primitives : List (String × Json.Kind) :=
  [("string", .string), ("number", .number), ("boolean", .boolean)]

/-- The name that an alias declares and what it stands for, from the text after the introduction. -/
def alias? (text : String) : Option (String × String) :=
  ((word text.toList).2.dropPrefix? " = ".toList).map fun type => (leadingName text, .ofList type)

/-- The aliases of declarations, each with what it stands for. -/
def declaredAliases (declarations : String) : List (String × String) :=
  (linesAfter ["export type ", "type "] declarations).filterMap alias?

/-- A quoted text or a template, which both stand for texts. -/
def isLiteral (type : List Char) : Bool :=
  ['\x27', '\x60'].any fun quote => type.head? == some quote && type.getLast? == some quote

/-- The kind of one alternative of a type. -/
def alternativeKind? (known : List (String × Json.Kind)) (type : List Char) : Option Json.Kind :=
  if isLiteral type then some .string else known.lookup (.ofList type)

/-- The kind of a type, if all its alternatives have one. -/
def kind? (known : List (String × Json.Kind)) (type : String) : Option Json.Kind :=
  match (pieces '|' type.toList).map fun a => alternativeKind? known (trimEnd (dropIndent a)) with
  | [] => none
  | kind :: kinds => if kinds.all (· == kind) then kind else none

/-- The kinds of the types with names: the primitive ones, and the aliases that stand for one kind,
each in terms of those before it. -/
def kindsOf (aliases : List (String × String)) : List (String × Json.Kind) :=
  aliases.foldl
    (fun known a => known ++ ((kind? known a.2).map fun kind => (a.1, kind)).toList) primitives

/-! ## Types of options -/

/-- A member of a type of options. -/
structure TypedMember where
  name : String
  mayBeAbsent : Bool
  type : String
  isArray : Bool
  deriving DecidableEq, Repr

/-- The type of a member, and whether it is an array of that type. -/
def elementType (text : List Char) : String × Bool :=
  match text.dropSuffix? "[]".toList with
  | some element => (.ofList element, true)
  | none => (.ofList text, false)

/-- A member of a type of options, from its line. -/
def typedMember? (line : String) : Option TypedMember :=
  let (name, rest) := word line.toList
  let optional := rest.dropPrefix? "?".toList
  ((optional.getD rest).dropPrefix? ": ".toList).map fun text =>
    let (type, isArray) := elementType text
    { name, mayBeAbsent := optional.isSome, type, isArray }

/-- The members of the type of options with a name, if it is declared and all its members are
read. -/
def optionsType? (name declarations : String) : Option (List TypedMember) :=
  (((blocksAfter ["interface "] declarations).map fun b =>
    (leadingName b.1, b.2.map typedMember?)).lookup name).bind (·.mapM id)

/-- The value of a type, given the kinds of the types with names. -/
def TypedMember.Admits (m : TypedMember) (known : List (String × Json.Kind)) (v : Json) : Prop :=
  ∃ kind, kind? known m.type = some kind ∧ v.HasShape m.isArray kind

/-- The value has a type of options: it is an object that has every member which may not be absent,
and for every member that it has a value of its type. Null is no value of a member. -/
def HasType (known : List (String × Json.Kind)) (type : List TypedMember) (v : Json) : Prop :=
  ∃ members, v = .object members ∧ ∀ m ∈ type,
    (m.mayBeAbsent = false → ∃ j, Json.member? members m.name = some j ∧ j ≠ .null) ∧
      ∀ j, Json.member? members m.name = some j → j ≠ .null → m.Admits known j

/-- The member that is declared for a field. -/
def typedMember (f : Field) : TypedMember where
  name := f.name
  mayBeAbsent := f.mayBeAbsent
  type := f.type.tsType
  isArray := f.isArray

/-- The kinds of the types that every file of declarations names. -/
def declaredKinds : List (String × Json.Kind) :=
  primitives ++ [("SortType", .string), ("Duration", .number), ("Numeral", .string),
    ("NumberSegment", .string), ("DateString", .string), ("Instant", .string)]

/-- In declarations, the options of a command have a type whose values are what the command accepts,
and all types in it are primitive or declared. -/
structure TypesOptions (c : Command) (declarations : String) : Prop where
  kinds : kindsOf (declaredAliases declarations) = declaredKinds
  type : optionsType? c.optionsName declarations = some (c.fields.map typedMember)
  named : ∀ m ∈ c.fields.map typedMember,
    m.type ∈ primitives.map (·.1) ∨ m.type ∈ (declaredAliases declarations).map (·.1)
  accepts : ∀ v, (∃ r, c.bind v = .ok r) ↔
    HasType (kindsOf (declaredAliases declarations)) (c.fields.map typedMember) v

/-! ## The types of fields -/

/-- The types that fields are declared with. -/
def fieldTypes : List String :=
  ["string", "number", "boolean", "DateString", "Instant", "Duration", "SortType"]

theorem tsType_mem (t : FieldType) : t.tsType ∈ fieldTypes := by
  cases t <;> simp [FieldType.tsType, FieldType.name, fieldTypes]

/-- The declared type of a field is of the kind that its values are made from. -/
theorem kind?_tsType (t : FieldType) : kind? declaredKinds t.tsType = some t.jsonKind := by
  cases t with
  | foreign name =>
    show kind? declaredKinds "string" = some .string
    decide
  | _ => decide

theorem elementType_tsType (f : Field) : elementType f.tsType.toList = (f.type.tsType, f.isArray) := by
  unfold Field.tsType
  cases f.isArray with
  | true =>
    have hsuffix : (f.type.tsType.toList ++ "[]".toList).dropSuffix? "[]".toList =
        some f.type.tsType.toList := List.dropSuffix?_eq_some_iff.2 ⟨_, rfl, by simp⟩
    rw [if_pos rfl, elementType, String.toList_append, hsuffix]
    simp only [String.ofList_toList]
  | false =>
    have hnone : ∀ type ∈ fieldTypes, elementType type.toList = (type, false) := by decide
    exact hnone _ (tsType_mem f.type)

theorem typedMember?_memberText {f : Field} (h : f.IsWritten) :
    typedMember? f.memberText = some (typedMember f) := by
  have hname := h.isName_name
  have htype := elementType_tsType f
  cases hmay : f.mayBeAbsent with
  | true =>
    have htext : f.memberText.toList =
        f.name.toList ++ '?' :: (": ".toList ++ f.tsType.toList) := by
      simp [Field.memberText, hmay]
    rw [typedMember?, htext, word_append hname (by decide)]
    simp [List.dropPrefix?, htype, typedMember, hmay]
  | false =>
    have htext : f.memberText.toList = f.name.toList ++ ':' :: (" ".toList ++ f.tsType.toList) := by
      simp [Field.memberText, hmay]
    rw [typedMember?, htext, word_append hname (by decide)]
    simp [List.dropPrefix?, htype, typedMember, hmay]

/-! ## Reading declarations -/

section Reading

variable {s : Schema} {c : Command}

/-- The aliases of every file of declarations. -/
def fixedAliases : List (String × String) :=
  [("SortType", "'time' | 'cost'"), ("Duration", "number"),
    ("Numeral", "'0' | '1' | '2' | '3' | '4' | '5' | '6' | '7' | '8' | '9'"),
    ("NumberSegment", "\x60$\x7bNumeral\x7d$\x7bNumeral\x7d\x60"),
    ("DateString", "\x60$\x7bNumberSegment\x7d-$\x7bNumberSegment\x7d\x60"),
    ("Instant", "\x60$\x7bNumberSegment\x7d:$\x7bNumberSegment\x7d\x60")]

theorem readAs_declaredAliases (hs : s.IsWritten) (config : Config) :
    ReadAs config (declarationsBody s) (declarations s config) declaredAliases fixedAliases := by
  have haliases : Shows (.after ["export type ", "type "] rfl) typeAliases
      (fixedAliases.map fun a => a.1 ++ " = " ++ a.2) :=
    typeAliasesSpelling.shows rfl (by decide) (by decide)
  have hbody := shows_after_declarationsBody hs (by decide) (by decide) haliases
  refine ((framed_declarations s config).linesAfter (by decide) hbody).map
    (List.filterMap alias?) ?_
  decide

theorem mapM_id_some {α : Type} (l : List α) : (l.map some).mapM id = some l := by
  induction l with
  | nil => rfl
  | cons a l ih => rw [List.map_cons, List.mapM_cons, ih]; rfl

/-- The type of the options of a command is read with its members. -/
theorem readAs_optionsType? (hs : s.IsWritten)
    (hrecords : (s.commands.map (·.recordName)).Nodup) (hc : c ∈ s.commands) (hf : c.fields ≠ [])
    (config : Config) :
    ReadAs config (declarationsBody s) (declarations s config) (optionsType? c.optionsName)
      (some (c.fields.map typedMember)) := by
  refine (readAs_interface hs config fun f hf => typedMember?_memberText hf).map
    (fun types => (types.lookup c.optionsName).bind (·.mapM id)) ?_
  have hkeys : (((s.commands.filter fun c => !c.fields.isEmpty).map fun c =>
      (c.optionsName, c.fields.map fun f => some (typedMember f))).map (·.1)).Nodup := by
    rw [List.map_map]
    exact nodup_optionsNames hrecords
  have hmem : c ∈ s.commands.filter fun c => !c.fields.isEmpty :=
    List.mem_filter.2 ⟨hc, by simpa using hf⟩
  have hlookup := (lookup_eq_some_iff_mem hkeys).2 (List.mem_map_of_mem hmem)
  have hmembers := mapM_id_some (c.fields.map typedMember)
  rw [List.map_map] at hmembers
  rw [hlookup]
  exact hmembers

end Reading

/-! ## Types and what is accepted -/

/-- With the kinds of the declarations, the values of the type of the options are those that the
command accepts. -/
theorem exists_bind_iff_hasType {c : Command} (hc : c.fields ≠ []) (v : Json) :
    (∃ r, c.bind v = .ok r) ↔ HasType declaredKinds (c.fields.map typedMember) v := by
  have hadmits : ∀ (f : Field) (j : Json), (typedMember f).Admits declaredKinds j ↔
      j.HasShape f.isArray f.type.jsonKind := by
    intro f j
    have hkind : kind? declaredKinds (typedMember f).type = some f.type.jsonKind :=
      kind?_tsType f.type
    constructor
    · rintro ⟨kind, hk, hshape⟩
      obtain rfl := Option.some.inj (hkind.symm.trans hk)
      exact hshape
    · exact fun hshape => ⟨_, hkind, hshape⟩
  rw [Command.exists_bind_iff hc, HasType]
  simp only [List.forall_mem_map, hadmits]
  rfl

theorem typesOptions_of_read {c : Command} (hc : c.fields ≠ []) {declarations : String}
    (haliases : declaredAliases declarations = fixedAliases)
    (htype : optionsType? c.optionsName declarations = some (c.fields.map typedMember)) :
    TypesOptions c declarations := by
  have hkinds : kindsOf (declaredAliases declarations) = declaredKinds := by
    rw [haliases]
    decide
  refine ⟨hkinds, htype, fun m hm => ?_, fun v => ?_⟩
  · obtain ⟨f, -, rfl⟩ := List.mem_map.1 hm
    have hnamed : ∀ type ∈ fieldTypes,
        type ∈ primitives.map (·.1) ∨ type ∈ fixedAliases.map (·.1) := by decide
    rw [haliases]
    exact hnamed _ (tsType_mem f.type)
  · rw [hkinds]
    exact exists_bind_iff_hasType hc v

/-- In a loaded schema, a command with fields accepts exactly the values of the declared type of its
options, as far as kinds of values go. The type and the aliases in it are read from the part of the
declarations that depends on the schema alone and, where no text of the configuration breaks a line,
from the whole file. -/
theorem typesOptions_of_load {text : String} {config : Config} {s : Schema}
    (hs : Schema.load text config = .ok s) {c : Command} (hc : c ∈ s.commands)
    (hf : c.fields ≠ []) :
    TypesOptions c (bodies s).declarations ∧
      ∀ emission : Config,
        (∃ front back, (Artifacts.ofSchema s emission).declarations =
          front ++ (bodies s).declarations ++ back) ∧
        (emission.IsPlain → TypesOptions c (Artifacts.ofSchema s emission).declarations) := by
  have hl := Schema.isLoaded_of_load hs
  have hw := hl.written
  have haliases := readAs_declaredAliases hw
  have htype := readAs_optionsType? hw hl.rules.recordNames hc hf
  refine ⟨?_, fun emission => ⟨?_, fun hplain => ?_⟩⟩
  · exact typesOptions_of_read hf (haliases {}).body (htype {}).body
  · exact isPart_declarations hw emission
  · exact typesOptions_of_read hf ((haliases emission).file hplain) ((htype emission).file hplain)

/-- Types that stand for texts and for numbers, a foreign one, and an array that may be left out. -/
theorem typesOptions_of_load_trip :
    let day : Field := ⟨"-d", "day", .date, false, false, none⟩
    let fare : Field := ⟨"-f", "fare", .foreign "Money", false, false, none⟩
    let stops : Field := ⟨"-s", "stops", .duration, true, true, none⟩
    let trip : Command := ⟨"trip", [day, fare, stops]⟩
    let config : Config := { foreignTypes := ["Money"] }
    let declarations := (Artifacts.ofSchema ⟨[trip]⟩ config).declarations
    let options (stops : Json) : Json :=
      .object [("day", .string "06-01"), ("fare", .string ""), ("stops", stops)]
    Schema.load "trip:\n  -d: Date day\n  -f: Money fare\n  -s: Duration stops?[]\n" config =
        .ok ⟨[trip]⟩ ∧
      optionsType? "TripOptions" declarations = some [⟨"day", false, "DateString", false⟩,
        ⟨"fare", false, "string", false⟩, ⟨"stops", true, "Duration", true⟩] ∧
      (∃ r, trip.bind (options (.array [.integer 5])) = .ok r) ∧
      HasType (kindsOf (declaredAliases declarations)) [⟨"day", false, "DateString", false⟩,
        ⟨"fare", false, "string", false⟩, ⟨"stops", true, "Duration", true⟩]
        (options (.array [.integer 5])) ∧
      ¬ HasType (kindsOf (declaredAliases declarations)) [⟨"day", false, "DateString", false⟩,
        ⟨"fare", false, "string", false⟩, ⟨"stops", true, "Duration", true⟩]
        (options (.array [.null])) := by
  intro day fare stops trip config declarations options
  have hload : Schema.load "trip:\n  -d: Date day\n  -f: Money fare\n  -s: Duration stops?[]\n"
      config = .ok ⟨[trip]⟩ := Schema.load_of_toOption (by decide +kernel)
  have htypes := (typesOptions_of_load hload (c := trip) (by simp) (by simp [trip])).2 config
  have hfile := htypes.2 (Config.isPlain_default _)
  have hmembers : trip.fields.map typedMember = [⟨"day", false, "DateString", false⟩,
      ⟨"fare", false, "string", false⟩, ⟨"stops", true, "Duration", true⟩] := by decide +kernel
  have hoptions : trip.optionsName = "TripOptions" := by decide +kernel
  have hbind : ∃ r, trip.bind (options (.array [.integer 5])) = .ok r := ⟨_, rfl⟩
  have hrefused : ¬ ∃ r, trip.bind (options (.array [.null])) = .ok r := by
    rintro ⟨r, hr⟩
    cases hr
  rw [← hmembers, ← hoptions]
  exact ⟨hload, hfile.type, hbind, (hfile.accepts _).1 hbind,
    fun h => hrefused ((hfile.accepts _).2 h)⟩

end CommandSchema.Generated
