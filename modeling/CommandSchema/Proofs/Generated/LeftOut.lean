import CommandSchema.Proofs.Generated.Blocks
import CommandSchema.Proofs.Generated.ArgvRun
import CommandSchema.Proofs.Invocation.LeftOut
import Mathlib.Data.List.TFAE

/-!
# Fields that may be left out, in the generated files

Three of the generated files say of every field whether it may be left out: the declarations by a
mark, the bridge by a test that the option is there, and the parser by a local that tells whether
the field has been seen. They agree with each other and with what is accepted.

* `optionMembers`: the members of the types of options, each with whether it is marked.
* `Code.guarded`, `OptionsCode.bindings`: the members that a script function binds, each with whether
  the option is looked for first.
* `Code.find?`, `ArgvCode.declaredLocals`, `ArgvCode.testedLocals`: the locals in the branch of a
  command.
* `leftOut`: the ways in which a field may be left out.
* `leftOut_tfae_of_load`: in a loaded schema, every field may be left out in all ways or in none.
-/

namespace CommandSchema.Generated

open Layout Text

/-! ## The mark in the declarations -/

/-- The name of a member of options, and whether the mark follows it. -/
def markedName (line : String) : String × Bool :=
  (leadingName line, (word line.toList).2.head? == some '?')

/-- The members of each type of options, each with whether it is marked. -/
def optionMembers (declarations : String) : List (String × List (String × Bool)) :=
  (blocksAfter ["interface "] declarations).map fun b => (leadingName b.1, b.2.map markedName)

theorem markedName_memberText {f : Field} (h : f.IsWritten) :
    markedName f.memberText = (f.name, f.mayBeAbsent) := by
  have hname := h.isName_name
  cases hmay : f.mayBeAbsent with
  | true =>
    have htext : f.memberText.toList = f.name.toList ++ '?' :: (": " ++ f.tsType).toList := by
      simp [Field.memberText, hmay]
    rw [markedName, leadingName, htext, word_append hname (by decide)]
    rfl
  | false =>
    have htext : f.memberText.toList = f.name.toList ++ ':' :: (" " ++ f.tsType).toList := by
      simp [Field.memberText, hmay]
    rw [markedName, leadingName, htext, word_append hname (by decide)]
    rfl

theorem readAs_optionMembers {s : Schema} (hs : s.IsWritten) (config : Config) :
    ReadAs config (declarationsBody s) (declarations s config) optionMembers
      ((s.commands.filter fun c => !c.fields.isEmpty).map
        fun c => (c.optionsName, c.fields.map fun f => (f.name, f.mayBeAbsent))) :=
  readAs_interface hs config fun _ hf => markedName_memberText hf

/-! ## Guards in structured code -/

section Code

variable {I H T : Type}

mutual

/-- The instructions of code, each with the heads of the blocks around it. -/
def Code.guarded (heads : List H) : Code I H T → List (List H × I)
  | .done => []
  | .run i next => (heads, i) :: next.guarded heads
  | .block h body next => body.guarded (heads ++ [h]) ++ next.guarded heads
  | .choose arms next => arms.guarded heads ++ next.guarded heads

@[inherit_doc Code.guarded]
def Arms.guarded (heads : List H) : Arms I H T → List (List H × I)
  | .otherwise body => body.guarded heads
  | .arm _ body rest => body.guarded heads ++ rest.guarded heads

end

variable {g : I → I}

mutual

theorem Code.guarded_map (heads : List H) : (c : Code I H T) →
    (c.map g).guarded heads = (c.guarded heads).map fun e => (e.1, g e.2)
  | .done => rfl
  | .run i next => by
    have hnext := next.guarded_map heads
    simp [Code.map, Code.guarded, hnext]
  | .block h body next => by
    have hbody := body.guarded_map (heads ++ [h])
    have hnext := next.guarded_map heads
    simp [Code.map, Code.guarded, hbody, hnext]
  | .choose arms next => by
    have harms := arms.guarded_map heads
    have hnext := next.guarded_map heads
    simp [Code.map, Code.guarded, harms, hnext]

theorem Arms.guarded_map (heads : List H) : (arms : Arms I H T) →
    (arms.map g).guarded heads = (arms.guarded heads).map fun e => (e.1, g e.2)
  | .otherwise body => body.guarded_map heads
  | .arm _ body rest => by
    have hbody := body.guarded_map heads
    have hrest := rest.guarded_map heads
    simp [Arms.map, Arms.guarded, hbody, hrest]

end

/-! ## Arms of structured code -/

variable [DecidableEq T]

/-- The code of the arm that has a test. -/
def Arms.find? (test : T) : Arms I H T → Option (Code I H T)
  | .otherwise _ => none
  | .arm t body rest => if t = test then some body else rest.find? test

/-- The code of the arm that has a test, among the chains that are in no block. -/
def Code.find? (test : T) : Code I H T → Option (Code I H T)
  | .done => none
  | .run _ next | .block _ _ next => next.find? test
  | .choose arms next => (arms.find? test).or (next.find? test)

theorem Arms.find?_map (test : T) : (arms : Arms I H T) →
    (arms.map g).find? test = (arms.find? test).map (Code.map g)
  | .otherwise _ => rfl
  | .arm t body rest => by
    rw [Arms.map, Arms.find?, Arms.find?, rest.find?_map test]
    split <;> rfl

theorem Code.find?_map (test : T) : (c : Code I H T) →
    (c.map g).find? test = (c.find? test).map (Code.map g)
  | .done => rfl
  | .run _ next | .block _ _ next => next.find?_map test
  | .choose arms next => by
    rw [Code.map, Code.find?, Code.find?, arms.find?_map test, next.find?_map test, Option.map_or]

/-- In a chain of arms for items, the code of an item is found by its test. -/
theorem Arms.find?_ofList {β κ : Type} [DecidableEq κ] {test : κ → T}
    (hinj : Function.Injective test) (key : β → κ) (body : β → Code I H T)
    (otherwise : Code I H T) (items : List β) (k : κ) :
    (Arms.ofList (items.map fun b => (test (key b), body b)) otherwise).find? (test k) =
      (items.find? (key · == k)).map body := by
  induction items with
  | nil => rfl
  | cons b items ih =>
    show (if test (key b) = test k then some (body b) else _) = _
    by_cases hk : key b = k
    · rw [if_pos (congrArg test hk), List.find?_cons_of_pos (by simpa using hk), Option.map_some]
    · rw [if_neg fun he => hk (hinj he), List.find?_cons_of_neg (by simpa using hk)]
      exact ih

end Code

/-! ## The guard in the bridge -/

namespace OptionsCode

/-- The member that an instruction binds, with whether the option is looked for first: by the
instruction itself or by a block around it. -/
def binding? (entry : List Head × Instruction) : Option (String × Bool) :=
  match entry.2 with
  | .assign member _ | .append member _ => some (member, entry.1.contains (.present member))
  | .assignPresent member _ => some (member, true)
  | _ => none

/-- The members that code binds, each with whether the option is looked for first. -/
def bindings (program : Body) : List (String × Bool) := (program.guarded []).filterMap binding?

theorem bindings_shown (program : Body) :
    bindings (program.map Instruction.shown) = bindings program := by
  rw [bindings, bindings, Code.guarded_map, List.filterMap_map]
  refine List.filterMap_congr fun entry _ => ?_
  obtain ⟨heads, i⟩ := entry
  cases i <;> rfl

/-- An array is bound in a block, any other value by one instruction. -/
theorem bindings_supply (f : Field) (next : Body) :
    bindings (supply f next) = (f.name, f.mayBeAbsent) :: bindings next := by
  unfold supply
  cases f.isArray with
  | true =>
    have hblock : ∀ head, bindings (.block head (supplyArray f) next) =
        (f.name, [head, .eachElement].contains (.present f.name)) :: bindings next := fun _ => rfl
    rw [if_pos rfl, hblock]
    cases f.mayBeAbsent <;> simp
  | false => cases f.mayBeAbsent <;> rfl

/-- A script function binds the members of its record in their order. -/
theorem bindings_ofCommand (c : Command) :
    bindings (ofCommand c) = c.fields.map fun f => (f.name, f.mayBeAbsent) := by
  have hanswer : bindings (.run .answer .done) = [] := rfl
  have hfields : ∀ fields : List Field, bindings (fields.foldr supply (.run .answer .done)) =
      fields.map fun f => (f.name, f.mayBeAbsent) := by
    intro fields
    induction fields with
    | nil => exact hanswer
    | cons f fields ih => rw [List.foldr_cons, bindings_supply, ih, List.map_cons]
  show bindings (supplyAll c (.run .answer .done)) = _
  unfold supplyAll
  split
  · next hempty => rw [hanswer, List.isEmpty_iff.1 hempty, List.map_nil]
  · exact hfields c.fields

end OptionsCode

/-! ## The locals in the parser -/

namespace ArgvCode

/-- The local that a line declares. -/
def declaredLocal? : Mark Instruction Head Test → Option String
  | .instruction (.newLocal name) => some name
  | _ => none

/-- The locals that a line tests. -/
def testedIn : Mark Instruction Head Test → List String
  | .opening (.when (.anyUnseen locals)) | .arm (.anyUnseen locals) => locals
  | _ => []

/-- The locals that code declares. -/
def declaredLocals (code : Body) : List String := (code.marks grammar).filterMap declaredLocal?

/-- The locals that code tests. -/
def testedLocals (code : Body) : List String := (code.marks grammar).flatMap testedIn

theorem declaredLocals_shown (code : Body) :
    declaredLocals (code.map Instruction.shown) = declaredLocals code := by
  rw [declaredLocals, declaredLocals, Code.marks_map, List.filterMap_map]
  refine List.filterMap_congr fun m _ => ?_
  cases m with
  | instruction i => cases i <;> rfl
  | _ => rfl

theorem testedLocals_shown (code : Body) :
    testedLocals (code.map Instruction.shown) = testedLocals code := by
  rw [testedLocals, testedLocals, Code.marks_map, List.flatMap_map]
  refine List.flatMap_congr fun m _ => ?_
  cases m with
  | instruction i => cases i <;> rfl
  | _ => rfl

/-- The branch of a command is its code. -/
theorem find?_ofSchema {s : Schema} (name : String) :
    (ofSchema s).find? (.command name) = (s.command? name).map commandCode := by
  have hinj : Function.Injective Test.command := fun _ _ h => Test.command.inj h
  have harms := Arms.find?_ofList hinj Command.name commandCode (.run .reject .done : Body)
    s.commands name
  show ((Arms.ofList (s.commands.map fun c => (Test.command c.name, commandCode c))
    (.run .reject .done)).find? (.command name)).or none = _
  rw [Option.or_none, harms]
  rfl

section Locals

variable {foreignTypes : List String} {c : Command} {f : Field}

/-- Every line of the code of a command belongs to it. -/
theorem markIsOf_of_mem {m : Mark Instruction Head Test} (hm : m ∈ (commandCode c).marks grammar) :
    markIsOf c m :=
  (allMarks_commandCode c).forall_mem (by trivial) (by trivial) m hm

/-- A field has a local only if it has to be supplied. -/
theorem seenLocal_mem_iff (hk : c.KeepsRules foreignTypes) (hf : f ∈ c.fields) :
    seenLocal f ∈ c.requiredFields.map seenLocal ↔ f.isRequired = true := by
  constructor
  · intro h
    obtain ⟨g, hg, he⟩ := List.mem_map.1 h
    obtain rfl := eq_of_seenLocal hk (List.mem_of_mem_filter hg) hf he
    exact (List.mem_filter.1 hg).2
  · exact fun hreq => List.mem_map_of_mem (List.mem_filter.2 ⟨hf, hreq⟩)

/-- The locals are declared behind the record, and tested once all arguments have been taken. -/
theorem marks_commandCode (hc : c.fields ≠ []) :
    ∃ first rest, (commandCode c).marks grammar =
      first :: ((c.requiredFields.map seenLocal).map (.instruction ∘ .newLocal) ++ rest ++
        (checkSeen (c.requiredFields.map seenLocal) (.run .accept .done)).marks grammar) := by
  have hempty : ¬ c.fields.isEmpty = true := by simpa using hc
  refine ⟨.instruction (.newRecord c.recordName),
    .opening .eachArgument :: (flagCode c).marks grammar ++ [.closing], ?_⟩
  rw [commandCode, if_neg hempty, Code.marks, Code.marks_runAll, Code.marks, List.map_map]
  simp

theorem mem_declaredLocals_iff (hk : c.KeepsRules foreignTypes) (hf : f ∈ c.fields) :
    seenLocal f ∈ declaredLocals (commandCode c) ↔ f.isRequired = true := by
  rw [← seenLocal_mem_iff hk hf]
  constructor
  · intro h
    obtain ⟨m, hm, hd⟩ := List.mem_filterMap.1 h
    have hof := markIsOf_of_mem hm
    unfold declaredLocal? at hd
    split at hd
    · obtain rfl := Option.some.inj hd
      exact hof
    · cases hd
  · intro hlocal
    obtain ⟨first, rest, hmarks⟩ := marks_commandCode (List.ne_nil_of_mem hf)
    refine List.mem_filterMap.2 ⟨.instruction (.newLocal (seenLocal f)), ?_, rfl⟩
    rw [hmarks]
    simp only [List.mem_cons, List.mem_append]
    exact .inr (.inl (.inl (List.mem_map.2 ⟨_, hlocal, rfl⟩)))

theorem mem_testedLocals_iff (hk : c.KeepsRules foreignTypes) (hf : f ∈ c.fields) :
    seenLocal f ∈ testedLocals (commandCode c) ↔ f.isRequired = true := by
  rw [← seenLocal_mem_iff hk hf]
  constructor
  · intro h
    obtain ⟨m, hm, ht⟩ := List.mem_flatMap.1 h
    have hof := markIsOf_of_mem hm
    unfold testedIn at ht
    split at ht
    · rwa [hof.2] at ht
    · rwa [hof.2] at ht
    · cases ht
  · intro hlocal
    obtain ⟨first, rest, hmarks⟩ := marks_commandCode (List.ne_nil_of_mem hf)
    -- With this local, there are locals to test.
    have hempty : ¬ (c.requiredFields.map seenLocal).isEmpty = true := by
      simpa using List.ne_nil_of_mem hlocal
    have hcheck : .opening (.when (.anyUnseen (c.requiredFields.map seenLocal))) ∈
        (checkSeen (c.requiredFields.map seenLocal) (.run .accept .done)).marks grammar := by
      rw [checkSeen, if_neg hempty]
      exact List.mem_cons_self
    refine List.mem_flatMap.2
      ⟨.opening (.when (.anyUnseen (c.requiredFields.map seenLocal))), ?_, hlocal⟩
    rw [hmarks]
    exact List.mem_cons_of_mem _ (List.mem_append_right _ hcheck)

end Locals

end ArgvCode

/-! ## Ways to leave a field out -/

section LeftOut

variable (s : Schema) (c : Command) (f : Field)

/-- In declarations, the member of a field in the options of its command is marked. -/
def MarkedIn (declarations : String) : Prop :=
  ∃ members, (c.optionsName, members) ∈ optionMembers declarations ∧ (f.name, true) ∈ members

/-- In a bridge, the function of a command binds the member of a field only if the option is
there. -/
def GuardedIn (bridge : String) : Prop :=
  ∃ program, OptionsCode.program? c.bridgeName bridge = some program ∧
    (f.name, true) ∈ OptionsCode.bindings program

/-- In the source of the parsers, the branch of a command neither declares nor tests a local for a
field. -/
def UntrackedIn (source : String) : Prop :=
  ∃ program branch, ArgvCode.program? source = some program ∧
    program.find? (.command c.name) = some branch ∧
      seenLocal f ∉ ArgvCode.declaredLocals branch ∧ seenLocal f ∉ ArgvCode.testedLocals branch

/-- The ways in which a field may be left out, according to files and to what is accepted. -/
def leftOut (files : Artifacts) : List Prop :=
  [f.mayBeAbsent = true, MarkedIn c f files.declarations, GuardedIn c f files.bridge,
    UntrackedIn c f files.source, c.AcceptsWithoutMember f, c.AcceptsNull f,
    s.AcceptsWithoutFlag c f]

theorem mayBeAbsent_mem_leftOut (files : Artifacts) :
    (f.mayBeAbsent = true) ∈ leftOut s c f files := List.mem_cons_self

end LeftOut

section Loaded

variable {foreignTypes : List String} {s : Schema} {c : Command} {f : Field}

/-- Among the fields of a command with a Boolean for each, a field is found with its own. -/
theorem mem_fields_iff (hk : c.KeepsRules foreignTypes) (hf : f ∈ c.fields) :
    (f.name, true) ∈ c.fields.map (fun g => (g.name, g.mayBeAbsent)) ↔ f.mayBeAbsent = true := by
  constructor
  · intro h
    obtain ⟨g, hg, he⟩ := List.mem_map.1 h
    obtain ⟨hname, hmay⟩ := Prod.mk.inj he
    obtain rfl := List.inj_on_of_nodup_map hk.names hg hf hname
    exact hmay
  · exact fun hmay => List.mem_map.2 ⟨f, hf, by rw [hmay]⟩

theorem markedIn_iff (hs : s.IsLoaded foreignTypes) (hc : c ∈ s.commands) (hf : f ∈ c.fields)
    {declarations : String} (hread : optionMembers declarations =
      (s.commands.filter fun c => !c.fields.isEmpty).map
        fun c => (c.optionsName, c.fields.map fun f => (f.name, f.mayBeAbsent))) :
    MarkedIn c f declarations ↔ f.mayBeAbsent = true := by
  have hfields := mem_fields_iff (hs.rules.commands c hc) hf
  unfold MarkedIn
  rw [hread, ← hfields]
  constructor
  · rintro ⟨members, hmembers, hm⟩
    obtain ⟨d, hd, he⟩ := List.mem_map.1 hmembers
    obtain ⟨hname, rfl⟩ := Prod.mk.inj he
    have hrecord : d.recordName = c.recordName := (String.append_left_inj _).1 hname
    obtain rfl :=
      List.inj_on_of_nodup_map hs.rules.recordNames (List.mem_of_mem_filter hd) hc hrecord
    exact hm
  · intro hm
    have hmem : c ∈ s.commands.filter fun c => !c.fields.isEmpty :=
      List.mem_filter.2 ⟨hc, by simpa using List.ne_nil_of_mem hf⟩
    exact ⟨_, List.mem_map_of_mem hmem, hm⟩

theorem guardedIn_iff (hk : c.KeepsRules foreignTypes) (hf : f ∈ c.fields) {bridge : String}
    (hread : OptionsCode.program? c.bridgeName bridge =
      some ((OptionsCode.ofCommand c).map OptionsCode.Instruction.shown)) :
    GuardedIn c f bridge ↔ f.mayBeAbsent = true := by
  have hbindings : OptionsCode.bindings ((OptionsCode.ofCommand c).map
      OptionsCode.Instruction.shown) = c.fields.map fun g => (g.name, g.mayBeAbsent) := by
    rw [OptionsCode.bindings_shown, OptionsCode.bindings_ofCommand]
  rw [← mem_fields_iff hk hf, ← hbindings]
  constructor
  · rintro ⟨program, hprogram, hm⟩
    obtain rfl := Option.some.inj (hread.symm.trans hprogram)
    exact hm
  · exact fun hm => ⟨_, hread, hm⟩

theorem untrackedIn_iff (hs : s.IsLoaded foreignTypes) (hc : c ∈ s.commands) (hf : f ∈ c.fields)
    {source : String} (hread : ArgvCode.program? source =
      some ((ArgvCode.ofSchema s).map ArgvCode.Instruction.shown)) :
    UntrackedIn c f source ↔ f.mayBeAbsent = true := by
  have hk := hs.rules.commands c hc
  have hbranch : ((ArgvCode.ofSchema s).map ArgvCode.Instruction.shown).find? (.command c.name) =
      some ((ArgvCode.commandCode c).map ArgvCode.Instruction.shown) := by
    rw [Code.find?_map, ArgvCode.find?_ofSchema, hs.command? hc]
    rfl
  have hlocals : (seenLocal f ∉ ArgvCode.declaredLocals ((ArgvCode.commandCode c).map
      ArgvCode.Instruction.shown) ∧ seenLocal f ∉ ArgvCode.testedLocals
        ((ArgvCode.commandCode c).map ArgvCode.Instruction.shown)) ↔ f.mayBeAbsent = true := by
    rw [ArgvCode.declaredLocals_shown, ArgvCode.testedLocals_shown,
      ArgvCode.mem_declaredLocals_iff hk hf, ArgvCode.mem_testedLocals_iff hk hf]
    simp [Field.isRequired]
  rw [← hlocals]
  constructor
  · rintro ⟨program, branch, hprogram, hfind, hm⟩
    obtain rfl := Option.some.inj (hread.symm.trans hprogram)
    obtain rfl := Option.some.inj (hbranch.symm.trans hfind)
    exact hm
  · exact fun hm => ⟨_, _, hread, hbranch, hm⟩

/-- Each way of leaving a field out is open exactly if the field may be absent. -/
theorem leftOut_tfae (hs : s.IsLoaded foreignTypes) (hc : c ∈ s.commands) (hf : f ∈ c.fields)
    {files : Artifacts} (hmarks : MarkedIn c f files.declarations ↔ f.mayBeAbsent = true)
    (hguard : GuardedIn c f files.bridge ↔ f.mayBeAbsent = true)
    (hlocals : UntrackedIn c f files.source ↔ f.mayBeAbsent = true) :
    (leftOut s c f files).TFAE := by
  have hk := hs.rules.commands c hc
  refine List.tfae_of_forall (f.mayBeAbsent = true) _ ?_
  simp only [leftOut, List.forall_mem_cons]
  exact ⟨trivial, hmarks, hguard, hlocals, Command.acceptsWithoutMember_iff hk hf,
    Command.acceptsNull_iff hk hf, Schema.acceptsWithoutFlag_iff hs hc hf, List.forall_mem_nil _⟩

end Loaded

/-- Every field of a loaded schema may be left out according to all files and of all that is
accepted, or according to none and of nothing. The files are read from the parts that depend on the
schema alone and, where no text of the configuration breaks a line, as a whole. -/
theorem leftOut_tfae_of_load {text : String} {config : Config} {s : Schema}
    (hs : Schema.load text config = .ok s) {c : Command} (hc : c ∈ s.commands) {f : Field}
    (hf : f ∈ c.fields) :
    (leftOut s c f (bodies s)).TFAE ∧
      ∀ emission : Config,
        List.Forall₂ (fun body file => ∃ front back, file = front ++ body ++ back)
          (bodies s).texts (Artifacts.ofSchema s emission).texts ∧
        (emission.IsPlain → (leftOut s c f (Artifacts.ofSchema s emission)).TFAE) := by
  have hl := Schema.isLoaded_of_load hs
  have hk := hl.rules.commands c hc
  have hne := hl.rules.nonempty
  have hmembers := readAs_optionMembers hl.written
  have hbridge := OptionsCode.readAs_program? hl.written hl.rules.recordNames hc
  have hsource := ArgvCode.readAs_program? hl.written hne
  refine ⟨?_, fun emission => ⟨isPart_bodies hl.written hne emission, fun hplain => ?_⟩⟩
  · exact leftOut_tfae hl hc hf (markedIn_iff hl hc hf (hmembers {}).body)
      (guardedIn_iff hk hf (hbridge {}).body) (untrackedIn_iff hl hc hf (hsource {}).body)
  · exact leftOut_tfae hl hc hf (markedIn_iff hl hc hf ((hmembers emission).file hplain))
      (guardedIn_iff hk hf ((hbridge emission).file hplain))
      (untrackedIn_iff hl hc hf ((hsource emission).file hplain))

/-- Fields that are optional or have an initializer, and others, with arrays among both. -/
theorem leftOut_tfae_of_load_order :
    let seat : Field := ⟨"-s", "seat", .string, false, false, none⟩
    let days : Field := ⟨"-d", "days", .date, false, true, none⟩
    let count : Field := ⟨"-n", "count", .int, false, false, some "1"⟩
    let coupon : Field := ⟨"-c", "coupon", .string, true, false, none⟩
    let tags : Field := ⟨"-t", "tags", .string, true, true, none⟩
    let order : Command := ⟨"order", [seat, days, count, coupon, tags]⟩
    let files := Artifacts.ofSchema ⟨[order]⟩ {}
    Schema.load ("order:\n  -s: string seat\n  -d: Date days[]\n  -n: int count = 1\n" ++
        "  -c: string coupon?\n  -t: string tags?[]\n") {} = .ok ⟨[order]⟩ ∧
      (∀ f ∈ [count, coupon, tags], ∀ way ∈ leftOut ⟨[order]⟩ order f files, way) ∧
      ∀ f ∈ [seat, days], ∀ way ∈ leftOut ⟨[order]⟩ order f files, ¬ way := by
  intro seat days count coupon tags order files
  have hload : Schema.load ("order:\n  -s: string seat\n  -d: Date days[]\n  -n: int count = 1\n" ++
      "  -c: string coupon?\n  -t: string tags?[]\n") {} = .ok ⟨[order]⟩ :=
    Schema.load_of_toOption (by decide +kernel)
  have hways : ∀ f ∈ order.fields, ∀ way ∈ leftOut ⟨[order]⟩ order f files,
      way ↔ f.mayBeAbsent = true := by
    intro f hf way hway
    have hways := (leftOut_tfae_of_load hload (c := order) (by simp) hf).2 {}
    exact hways.2 (Config.isPlain_default _) way hway _ (mayBeAbsent_mem_leftOut ..)
  have hfree : ∀ f ∈ [count, coupon, tags], f ∈ order.fields ∧ f.mayBeAbsent = true := by
    decide +kernel
  have hbound : ∀ f ∈ [seat, days], f ∈ order.fields ∧ ¬ f.mayBeAbsent = true := by
    decide +kernel
  refine ⟨hload, fun f hf way hway => ?_, fun f hf way hway => ?_⟩
  · obtain ⟨hmem, hmay⟩ := hfree f hf
    exact (hways f hmem way hway).2 hmay
  · obtain ⟨hmem, hmay⟩ := hbound f hf
    exact fun h => hmay ((hways f hmem way hway).1 h)

end CommandSchema.Generated
