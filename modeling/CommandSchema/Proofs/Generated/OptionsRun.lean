import CommandSchema.Proofs.Generated.Host
import CommandSchema.Proofs.Generated.Machine
import CommandSchema.Proofs.Generated.OptionsText
import CommandSchema.Proofs.Invocation.Options

/-!
# What a script function does

The function of a command is run as the program that is read from its text, on objects that the
reference accepts. An expression makes of a script's value what the reference makes of it, and an
option counts as there if it is neither missing nor null. The elements of an array are appended to
the ones that the member starts with, which the reference replaces.

* `OptionsCode.machine`: what the instructions and heads of a script function do.
* `Host.assigned?`: what the code of a field leaves in its member.
* `OptionsCode.run_program`: the record that the function runs, and when it is the reference's.
-/

namespace CommandSchema.Generated

/-- The value that the code of a field leaves in its member, if it changes it. -/
def Host.assigned? (h : Host) (f : Field) : Option Value → Option Value
  | none => none
  | some v =>
    if f.isArray then
      if v.asArray = [] then none
      else some (.array (h.contents f.initialSlot ++ v.asArray))
    else some v

namespace OptionsCode

/-! ## The machine -/

/-- The variables of a script function. -/
structure State where
  record : Option Record := none
  options : Option (List (String × Json)) := none
  array : Option (List Json) := none
  element : Option Json := none

/-- The option is missing or null. -/
def isNullish (options : List (String × Json)) (key : String) : Bool :=
  match Json.member? options key with
  | some .null | none => true
  | some _ => false

/-- What is done for every element. -/
def eachElement (body : State → Flow State Record) : List Json → State → Flow State Record
  | [], σ => .next σ
  | element :: elements, σ =>
    (body { σ with element := some element }).andThen fun σ => eachElement body elements σ

variable (host : Host) (members : List (String × Json))

/-- Assigns an option to the member of its name. -/
def assignOption (member : String) (type : FieldType) (σ : State) : Flow State Record :=
  .ofOption do
    let option ← Json.member? (← σ.options) member
    let r ← host.assign? (← σ.record) member (← type.ofJson? option)
    return { σ with record := some r }

/-- Goes on only if an option is there. -/
def whenPresent (key : String) (body : State → Flow State Record) (σ : State) :
    Flow State Record :=
  match σ.options with
  | some options => if isNullish options key then .next σ else body σ
  | none => .stuck

/-- What an instruction does. -/
def step : Instruction → State → Flow State Record
  | .newRecord name, σ =>
    .ofOption ((host.struct? name).map fun c => { σ with record := some c.initialRecord })
  | .nameOptions, σ => .next { σ with options := some members }
  | .assign member type, σ => assignOption host member type σ
  | .assignPresent member type, σ => whenPresent member (assignOption host member type) σ
  | .nameArray member, σ => .ofOption do
    match Json.member? (← σ.options) member with
    | some (.array elements) => return { σ with array := some elements }
    | _ => none
  | .reserve _, σ => .ofOption (σ.array.map fun _ => σ)
  | .append member type, σ => .ofOption do
    let v ← type.ofJson? (← σ.element)
    let r ← host.append? (← σ.record) member v
    return { σ with record := some r }
  | .answer, σ =>
    match σ.record with
    | some r => .returned r
    | none => .stuck

/-- What a block does. -/
def block : Head → (State → Flow State Record) → State → Flow State Record
  | .always, body, σ => body σ
  | .present key, body, σ => whenPresent key body σ
  | .eachElement, body, σ =>
    match σ.array with
    | some elements => eachElement body elements σ
    | none => .stuck

/-- What a script function does with the members of an object. -/
def machine : Machine Instruction Head Empty State Record where
  step := step host members
  test := nofun
  block := block

/-- A script function run on the members of an object: the record that it has run. -/
def run (program : Body) : Flow State Record := program.exec (machine host members) {}

/-- The machine that the emitted code is run on: it reads every instruction as its text shows it. -/
def shownMachine : Machine Instruction Head Empty State Record :=
  (machine host members).withStep Instruction.shown

/-! ## One field -/

variable {host members} {c : Command} {f : Field} {r : Record} {σ : State}

/-- A member holds of the value that the text of an expression makes what its type makes. -/
theorem hold_shown {t : FieldType} {j : Json} {v : Value} (h : t.ofJson? j = some v) :
    ∃ w, t.shown.ofJson? j = some w ∧ t.hold w = v := by
  cases t with
  | foreign name =>
    cases j with
    | string text => exact ⟨.string text, rfl, Option.some.inj h⟩
    | _ => simp [FieldType.ofJson?, FieldType.ofNumber?] at h
  | _ => exact ⟨v, h, rfl⟩

/-- The reference takes an option as there exactly if it is not nullish. -/
theorem isNullish_eq (f : Field) (members : List (String × Json)) :
    isNullish members f.name = (f.member? members).isNone := by
  unfold isNullish Field.member?
  cases Json.member? members f.name with
  | none => rfl
  | some v => cases v <;> rfl

/-- A value is assigned to a member that is no array. -/
theorem exec_assign (hr : host.Knows c r) (hf : f ∈ c.fields) (ha : f.isArray = false)
    (hrecord : σ.record = some r) (hoptions : σ.options = some members) {j : Json} {v : Value}
    (hj : Json.member? members f.name = some j) (hv : f.type.ofJson? j = some v) :
    assignOption host f.name f.type.shown σ = .next { σ with record := some (r.set f.name v) } := by
  obtain ⟨w, hw, hhold⟩ := hold_shown hv
  have hassign := hr.assign? hf ha w
  rw [hhold] at hassign
  simp [assignOption, hrecord, hoptions, hj, hw, hassign, Flow.ofOption]

/-- Elements are appended one by one to what the member holds. -/
theorem eachElement_append (members : List (String × Json)) (hf : f ∈ c.fields)
    (ha : f.isArray = true) {slot : Slot} (hr : host.Knows c r)
    (hslot : r.get? f.name = some slot) {elements : List Json} {vs : List Value}
    (hvs : List.Forall₂ (fun j v => f.type.ofJson? j = some v) elements vs)
    (hrecord : σ.record = some r) :
    ∃ σ', eachElement (fun σ => Code.exec (shownMachine host members)
          (.run (.append f.name f.type) .done) σ) elements σ = .next σ' ∧
      σ'.options = σ.options ∧
      σ'.record = some (if vs = [] then r
        else r.set f.name (.array (host.contents slot ++ vs))) := by
  induction hvs generalizing σ r slot with
  | nil => exact ⟨σ, rfl, rfl, by rw [hrecord, if_pos rfl]⟩
  | @cons j v elements vs hv hvs ih =>
    obtain ⟨w, hw, hhold⟩ := hold_shown hv
    have happend := hr.append? hf ha hslot w
    rw [hhold] at happend
    -- After the first element, the member holds one more than the slot that it started with.
    let r' := r.set f.name (.array (host.contents slot ++ [v]))
    have hstep : Code.exec (shownMachine host members) (.run (.append f.name f.type) .done)
        { σ with element := some j } = .next { σ with element := some j, record := some r' } := by
      simp [Code.exec, shownMachine, Machine.withStep, machine, Instruction.shown, step, hrecord,
        hw, happend, Flow.ofOption, r']
    have hslot' : r'.get? f.name = some (.set (.array (host.contents slot ++ [v]))) :=
      Record.get?_set_self (hr.members f hf) _
    obtain ⟨σ', hrun, hoptions, hrecord'⟩ := ih (hr.set f.name _) hslot'
      (σ := { σ with element := some j, record := some r' }) rfl
    refine ⟨σ', ?_, hoptions, ?_⟩
    · rw [eachElement, hstep]
      exact hrun
    · rw [hrecord', if_neg (List.cons_ne_nil v vs)]
      by_cases hnil : vs = []
      · rw [if_pos hnil, hnil]
      · rw [if_neg hnil, Record.set_set]
        show some (r.set f.name (.array (host.contents slot ++ [v] ++ vs))) = _
        rw [List.append_assoc, List.singleton_append]

theorem whenPresent_of_some {j : Json} (hj : f.member? members = some j)
    (hoptions : σ.options = some members) (body : State → Flow State Record) :
    whenPresent f.name body σ = body σ := by
  rw [whenPresent, hoptions]
  simp [isNullish_eq, hj]

theorem whenPresent_of_none (h : f.member? members = none) (hoptions : σ.options = some members)
    (body : State → Flow State Record) : whenPresent f.name body σ = .next σ := by
  rw [whenPresent, hoptions]
  simp [isNullish_eq, h]

/-- The code of an array that is there appends its elements. -/
theorem exec_supplyArray (hr : host.Knows c r) (hf : f ∈ c.fields) (ha : f.isArray = true)
    {slot : Slot} (hslot : r.get? f.name = some slot) (hrecord : σ.record = some r)
    (hoptions : σ.options = some members) {elements : List Json}
    (hj : Json.member? members f.name = some (.array elements)) {vs : List Value}
    (hvs : List.Forall₂ (fun j v => f.type.ofJson? j = some v) elements vs) :
    ∃ σ', (supplyArray f).exec (shownMachine host members) σ = .next σ' ∧
      σ'.options = some members ∧
      σ'.record = some (if vs = [] then r
        else r.set f.name (.array (host.contents slot ++ vs))) := by
  let τ : State := { σ with array := some elements }
  have hname : (shownMachine host members).step (.nameArray f.name) σ = .next τ := by
    show step host members (.nameArray f.name) σ = _
    simp [step, hoptions, hj, Flow.ofOption, τ]
  have hreserve : (shownMachine host members).step (.reserve f.name) τ = .next τ := rfl
  obtain ⟨σ', hrun, hoptions', hrecord'⟩ :=
    eachElement_append (σ := τ) members hf ha hr hslot hvs hrecord
  refine ⟨σ', ?_, hoptions'.trans hoptions, hrecord'⟩
  refine (Code.exec_run hname _).trans ?_
  refine (Code.exec_run hreserve _).trans ?_
  exact Code.exec_block hrun .done

/-- The code of a field leaves its member as it is or assigns a value to it. -/
theorem exec_supply (hr : host.Knows c r) (hf : f ∈ c.fields)
    (hslot : r.get? f.name = some f.initialSlot) (hrecord : σ.record = some r)
    (hoptions : σ.options = some members) {o : Option Value} (ho : f.bind members = .ok o)
    (next : Body) :
    ∃ σ', (supply f next).exec (shownMachine host members) σ =
        next.exec (shownMachine host members) σ' ∧ σ'.options = some members ∧
      σ'.record = some (r.setAll ((host.assigned? f o).map fun v => (f.name, v)).toList) := by
  unfold supply
  rcases Field.bind_eq_ok_iff.1 ho with ⟨j, v, hj, hv, rfl⟩ | ⟨hnone, habsent, rfl⟩
  · have hmember := (Field.member?_eq_some_iff.1 hj).1
    cases ha : f.isArray with
    | true =>
      obtain ⟨elements, vs, rfl, rfl, hvs⟩ := Field.forall₂_of_ofJson ha hv
      obtain ⟨σ', hrun, hoptions', hrecord'⟩ :=
        exec_supplyArray hr hf ha hslot hrecord hoptions hmember hvs
      refine ⟨σ', ?_, hoptions', ?_⟩
      · refine Code.exec_block ?_ next
        split
        · exact (whenPresent_of_some hj hoptions _).trans hrun
        · exact hrun
      · rw [hrecord', Host.assigned?, if_pos ha]
        by_cases hnil : vs = []
        · simp [hnil, Value.asArray, Record.setAll]
        · simp [hnil, Value.asArray, Record.setAll]
    | false =>
      have hassign := exec_assign hr hf ha hrecord hoptions hmember (Field.ofJson?_of_ofJson ha hv)
      refine ⟨{ σ with record := some (r.set f.name v) }, ?_, hoptions, ?_⟩
      · refine Code.exec_run ?_ next
        split
        · exact (whenPresent_of_some hj hoptions _).trans hassign
        · exact hassign
      · rw [Host.assigned?, if_neg (by simp [ha])]
        rfl
  · refine ⟨σ, ?_, hoptions, hrecord⟩
    rw [if_pos habsent, if_pos habsent]
    split
    · exact Code.exec_block (whenPresent_of_none hnone hoptions _) next
    · exact Code.exec_run (whenPresent_of_none hnone hoptions _) next

/-! ## A command -/

variable {foreignTypes : List String}

/-- The values that the function of a command leaves in members of its record. -/
def scriptValues (host : Host) (members : List (String × Json)) (fields : List Field) :
    List (String × Value) :=
  namedValues (fun f => host.assigned? f (f.bound? members)) fields

/-- Field after field, the members of a record are assigned to. The fields that are still to come
have the slots that they started with. -/
theorem exec_supplyFields {fields : List Field} (hfields : ∀ f ∈ fields, f ∈ c.fields)
    (hnames : (fields.map (·.name)).Nodup) (hr : host.Knows c r)
    (hslots : ∀ f ∈ fields, r.get? f.name = some f.initialSlot)
    (hbind : ∀ f ∈ fields, ∃ o, f.bind members = .ok o) (hrecord : σ.record = some r)
    (hoptions : σ.options = some members) (next : Body) :
    ∃ σ', (fields.foldr supply next).exec (shownMachine host members) σ =
        next.exec (shownMachine host members) σ' ∧
      σ'.record = some (r.setAll (scriptValues host members fields)) := by
  induction fields generalizing r σ with
  | nil => exact ⟨σ, rfl, hrecord⟩
  | cons f fields ih =>
    obtain ⟨hf, hfields⟩ := List.forall_mem_cons.1 hfields
    obtain ⟨hslot, hslots⟩ := List.forall_mem_cons.1 hslots
    obtain ⟨⟨o, ho⟩, hbind⟩ := List.forall_mem_cons.1 hbind
    rw [List.map_cons, List.nodup_cons] at hnames
    obtain ⟨σ₁, hrun₁, hoptions₁, hrecord₁⟩ :=
      exec_supply hr hf hslot hrecord hoptions ho (fields.foldr supply next)
    -- Names are distinct, so the fields to come still have the slots that they started with.
    let values := ((host.assigned? f o).map fun v => (f.name, v)).toList
    have hslots₁ : ∀ g ∈ fields, (r.setAll values).get? g.name = some g.initialSlot := by
      intro g hg
      have hne : g.name ≠ f.name := fun he => hnames.1 (he ▸ List.mem_map_of_mem hg)
      cases hv : host.assigned? f o with
      | none =>
        have hset : r.setAll values = r := by simp [values, hv, Record.setAll]
        rw [hset]
        exact hslots g hg
      | some v =>
        have hset : r.setAll values = r.set f.name v := by simp [values, hv, Record.setAll]
        rw [hset, Record.get?_set, hslots g hg, Option.map_some, if_neg hne]
    obtain ⟨σ₂, hrun₂, hrecord₂⟩ :=
      ih hfields hnames.2 (hr.setAll values) hslots₁ hbind hrecord₁ hoptions₁
    refine ⟨σ₂, ?_, ?_⟩
    · rw [List.foldr_cons, hrun₁, hrun₂]
    · rw [hrecord₂, scriptValues, scriptValues, namedValues_cons, Field.bound?_of_bind ho,
        Record.setAll, Record.setAll, Record.setAll, List.foldl_append]

/-- The function of a command on an object that can be bound. -/
theorem exec_ofCommand (hk : c.KeepsRules foreignTypes) (hr : host.Knows c c.initialRecord)
    (hname : host.struct? c.recordName = some c)
    (hbind : ∀ f ∈ c.fields, ∃ o, f.bind members = .ok o) :
    (ofCommand c).exec (shownMachine host members) {} =
      .returned (c.initialRecord.setAll (scriptValues host members c.fields)) := by
  have hnew : (shownMachine host members).step (.newRecord c.recordName) {} =
      .next { record := some c.initialRecord } := by
    show step host members (.newRecord c.recordName) {} = _
    simp only [step, hname]
    rfl
  have hanswer {σ : State} {r : Record} (hσ : σ.record = some r) :
      (Code.run .answer .done : Body).exec (shownMachine host members) σ = .returned r := by
    refine Code.exec_run_returned ?_ .done
    show step host members .answer σ = _
    simp only [step, hσ]
  refine (Code.exec_run hnew _).trans ?_
  unfold supplyAll
  by_cases hc : c.fields.isEmpty = true
  · have hnil : c.fields = [] := by simpa using hc
    rw [if_pos hc, hnil]
    exact hanswer rfl
  · have hoptions : (shownMachine host members).step .nameOptions
        { record := some c.initialRecord } =
          .next { record := some c.initialRecord, options := some members } := rfl
    obtain ⟨σ', hrun, hrecord⟩ :=
      exec_supplyFields (σ := { record := some c.initialRecord, options := some members })
        (fun f hf => hf) hk.names hr (fun f hf => Command.get?_initialRecord hk.names hf) hbind rfl
        rfl (.run .answer .done)
    rw [if_neg hc]
    refine (Code.exec_run hoptions _).trans ?_
    rw [hrun]
    exact hanswer hrecord

/-! ## A schema -/

/-- A slot holds a value: of an array, the elements count. -/
def Holds (host : Host) (f : Field) (slot : Slot) (v : Value) : Prop :=
  if f.isArray then host.contents slot = v.asArray else slot = .set v

/-- A record is as it was bound: members that are supplied hold what they were bound to, and the
others are as they were declared. -/
def IsBound (host : Host) (c : Command) (members : List (String × Json)) (bound r : Record) :
    Prop :=
  ∀ f ∈ c.fields,
    (f.member? members = none → r.get? f.name = some f.initialSlot) ∧
      (f.member? members ≠ none → ∃ slot v, r.get? f.name = some slot ∧
        bound.get? f.name = some (.set v) ∧ Holds host f slot v)

/-- The slots that the function of a command leaves, beside those that were bound: the elements of
an array that is supplied come after the ones that it starts with. -/
theorem slots_scriptValues (hk : c.KeepsRules foreignTypes)
    (hbind : ∀ f ∈ c.fields, ∃ o, f.bind members = .ok o) (hf : f ∈ c.fields) :
    let bound := c.initialRecord.setAll (c.boundValues members)
    let r := c.initialRecord.setAll (scriptValues host members c.fields)
    (f.member? members = none → r.get? f.name = some f.initialSlot) ∧
      (f.member? members ≠ none → ∃ slot v, r.get? f.name = some slot ∧
        bound.get? f.name = some (.set v) ∧ (f.isArray = false → slot = .set v) ∧
        (f.isArray = true →
          host.contents slot = host.contents f.initialSlot ++ v.asArray)) := by
  intro bound r
  have hr : r.get? f.name =
      some (((host.assigned? f (f.bound? members)).map Slot.set).getD f.initialSlot) :=
    get?_setAll_namedValues hk.names hf
  have hbound : bound.get? f.name =
      some (((f.bound? members).map Slot.set).getD f.initialSlot) :=
    get?_setAll_namedValues hk.names hf
  obtain ⟨o, ho⟩ := hbind f hf
  rw [Field.bound?_of_bind ho] at hr hbound
  rcases Field.bind_eq_ok_iff.1 ho with ⟨j, v, hj, -, rfl⟩ | ⟨hnone, -, rfl⟩
  · refine ⟨fun h => by simp [hj] at h, fun _ => ⟨_, v, hr, hbound, fun ha => ?_, fun ha => ?_⟩⟩
    · rw [Host.assigned?, ha, if_neg (by decide)]
      rfl
    · rw [Host.assigned?, if_pos ha]
      by_cases hnil : v.asArray = []
      · rw [if_pos hnil, hnil, List.append_nil]
        rfl
      · rw [if_neg hnil]
        rfl
  · exact ⟨fun _ => hr, fun h => absurd hnone h⟩

/-- The function of a command runs what was bound exactly if no array that is supplied starts with
elements. -/
theorem isBound_scriptValues (hk : c.KeepsRules foreignTypes)
    (hbind : ∀ f ∈ c.fields, ∃ o, f.bind members = .ok o) :
    IsBound host c members (c.initialRecord.setAll (c.boundValues members))
        (c.initialRecord.setAll (scriptValues host members c.fields)) ↔
      ∀ f ∈ c.fields, f.member? members ≠ none → f.isArray = true →
        ∀ e, f.initial = some e → host.elements e = [] := by
  constructor
  · -- Both facts are about one slot and one value, so the elements it starts with cancel.
    intro h f hf hm ha
    obtain ⟨slot, v, hslot, hv, hholds⟩ := (h f hf).2 hm
    obtain ⟨slot', v', hslot', hv', -, hcontents⟩ := (slots_scriptValues hk hbind hf).2 hm
    obtain rfl := Option.some.inj (hslot.symm.trans hslot')
    obtain rfl := Slot.set.inj (Option.some.inj (hv.symm.trans hv'))
    rw [Holds, if_pos ha, hcontents ha] at hholds
    exact (host.contents_initialSlot ha).1 (List.append_left_eq_self.1 hholds)
  · intro h f hf
    obtain ⟨hnone, hsome⟩ := slots_scriptValues hk hbind hf
    refine ⟨hnone, fun hm => ?_⟩
    obtain ⟨slot, v, hslot, hv, hscalar, harray⟩ := hsome hm
    refine ⟨slot, v, hslot, hv, ?_⟩
    unfold Holds
    cases ha : f.isArray with
    | true =>
      have hempty := (host.contents_initialSlot ha).2 (h f hf hm ha)
      rw [if_pos rfl, harray ha, hempty, List.nil_append]
    | false => exact hscalar ha

variable {s : Schema}

/-- What is read from the text of a command's function is a program. On every object that can be
bound it runs a record in which the members that are not supplied are as they were declared, those
that are no arrays hold what they were bound to, and the elements of an array come after the ones
that it starts with. So the record is the bound one exactly if every array that is supplied starts
without elements. -/
theorem run_scriptFunction {text : String} {config : Config}
    (hs : Schema.load text config = .ok s) (hc : c ∈ s.commands) (emission : Config)
    (elements : String → List Value) :
    let host := Host.ofSchema s elements
    ∃ program,
      ((∃ front back,
          Layout.render (bridge s emission) = front ++ Layout.render (scriptFunction c) ++ back) ∧
        program? c.bridgeName (Layout.render (scriptFunction c)) = some program ∧
        ('\n' ∉ emission.nameSpace.toList →
          program? c.bridgeName (Layout.render (bridge s emission)) = some program)) ∧
      ∀ members bound, c.bind (.object members) = .ok bound →
        ∃ r, run host members program = .returned r ∧ r.name = bound.name ∧
          r.names = bound.names ∧
          (∀ f ∈ c.fields,
            (f.member? members = none → r.get? f.name = some f.initialSlot) ∧
              (f.member? members ≠ none → ∃ slot v, r.get? f.name = some slot ∧
                bound.get? f.name = some (.set v) ∧ (f.isArray = false → slot = .set v) ∧
                (f.isArray = true →
                  host.contents slot = host.contents f.initialSlot ++ v.asArray))) ∧
          (IsBound host c members bound r ↔
            ∀ f ∈ c.fields, f.member? members ≠ none → f.isArray = true →
              ∀ e, f.initial = some e → elements e = []) := by
  intro host
  have hl := Schema.isLoaded_of_load hs
  have hw := hl.written.commands c hc
  have hk := hl.rules.commands c hc
  obtain ⟨hpart, hwhole⟩ := program?_bridge hl.written hl.rules.recordNames hc emission
  refine ⟨_, ⟨hpart, program?_scriptFunction hw, hwhole⟩, fun members bound hbound => ?_⟩
  obtain ⟨hbind, rfl⟩ := Command.of_bind_object hbound
  have hrun : run host members ((ofCommand c).map Instruction.shown) =
      .returned (c.initialRecord.setAll (scriptValues host members c.fields)) := by
    rw [run, Code.exec_map]
    exact exec_ofCommand hk (Host.knows_initialRecord hl hc elements) (hl.recordNamed hc) hbind
  refine ⟨_, hrun, ?_, ?_, fun f hf => slots_scriptValues hk hbind hf,
    isBound_scriptValues hk hbind⟩
  · rw [Record.name_setAll, Record.name_setAll]
  · rw [Record.names_setAll, Record.names_setAll]

/-- An array with elements of its own that is not supplied. -/
theorem run_scriptFunction_purchase :
    let client : Field := ⟨"-c", "client", .string, false, false, none⟩
    let prices : Field := ⟨"-p", "prices", .int, false, true, some "\x7b1, 2\x7d"⟩
    let c : Command := ⟨"buy", [client, prices]⟩
    let host := Host.ofSchema ⟨[c]⟩ fun _ => [.int 1, .int 2]
    let members : List (String × Json) := [("prices", .null), ("client", .string "Ada")]
    let bound : Record :=
      ⟨"Buy", [("client", .set (.string "Ada")), ("prices", .initial "\x7b1, 2\x7d")]⟩
    Schema.load "buy:\n  -c: string client\n  -p: int prices[] = \x7b1, 2\x7d\n" {} =
        .ok ⟨[c]⟩ ∧
      c.bind (.object members) = .ok bound ∧
      ∃ program, program? "nodeBuy" (Layout.render (bridge ⟨[c]⟩ {})) = some program ∧
        ∃ r, run host members program = .returned r ∧ IsBound host c members bound r := by
  intro client prices c host members bound
  have hs : Schema.load "buy:\n  -c: string client\n  -p: int prices[] = \x7b1, 2\x7d\n" {} =
      .ok ⟨[c]⟩ := Schema.load_of_toOption (by decide +kernel)
  have hbound : c.bind (.object members) = .ok bound := by decide +kernel
  obtain ⟨program, ⟨-, -, hprogram⟩, hrun⟩ :=
    run_scriptFunction hs (c := c) List.mem_cons_self {} fun _ => [.int 1, .int 2]
  obtain ⟨r, hr, -, -, -, hiff⟩ := hrun members bound hbound
  have hname : c.bridgeName = "nodeBuy" := by decide +kernel
  rw [hname] at hprogram
  refine ⟨hs, hbound, program, hprogram (by decide +kernel), r, hr, hiff.2 ?_⟩
  intro f hf hm ha
  have hnull : prices.member? members = none := by
    simp [Field.member?, Json.member?, members, prices]
  rcases List.mem_cons.1 hf with rfl | hf
  · exact absurd ha (by decide)
  · obtain rfl := List.mem_singleton.1 hf
    exact absurd hnull hm

/-- An array with elements of its own is extended by the elements that are supplied, where the
reference replaces them. -/
theorem not_isBound_prices :
    let prices : Field := ⟨"-p", "prices", .int, false, true, some "\x7b1, 2\x7d"⟩
    let c : Command := ⟨"buy", [prices]⟩
    let host := Host.ofSchema ⟨[c]⟩ fun _ => [.int 1, .int 2]
    let members : List (String × Json) := [("prices", .array [.integer 5])]
    let bound : Record := ⟨"Buy", [("prices", .set (.array [.int 5]))]⟩
    let r : Record := ⟨"Buy", [("prices", .set (.array [.int 1, .int 2, .int 5]))]⟩
    Schema.load "buy:\n  -p: int prices[] = \x7b1, 2\x7d\n" {} = .ok ⟨[c]⟩ ∧
      c.bind (.object members) = .ok bound ∧
      ∃ program, program? "nodeBuy" (Layout.render (bridge ⟨[c]⟩ {})) = some program ∧
        run host members program = .returned r ∧ ¬ IsBound host c members bound r := by
  intro prices c host members bound r
  have hs : Schema.load "buy:\n  -p: int prices[] = \x7b1, 2\x7d\n" {} = .ok ⟨[c]⟩ :=
    Schema.load_of_toOption (by decide +kernel)
  have hl := Schema.isLoaded_of_load hs
  have hc : c ∈ (⟨[c]⟩ : Schema).commands := List.mem_cons_self
  have hname : c.bridgeName = "nodeBuy" := by decide +kernel
  have hprogram := (program?_bridge hl.written hl.rules.recordNames hc {}).2 (by decide +kernel)
  rw [hname] at hprogram
  have hbound : c.bind (.object members) = .ok bound := by decide +kernel
  have hrun := exec_ofCommand (hl.rules.commands c hc)
    (Host.knows_initialRecord hl hc fun _ => [.int 1, .int 2]) (hl.recordNamed hc)
    (Command.of_bind_object hbound).1
  have hrecord : c.initialRecord.setAll (scriptValues host members c.fields) = r := by
    decide +kernel
  refine ⟨hs, hbound, _, hprogram, ?_, fun h => ?_⟩
  · rw [run, Code.exec_map, ← hrecord]
    exact hrun
  · have hmember : prices.member? members = some (.array [.integer 5]) := by
      simp [Field.member?, Json.member?, members, prices]
    have hget : r.get? prices.name = some (.set (.array [.int 1, .int 2, .int 5])) := by
      decide +kernel
    have hget' : bound.get? prices.name = some (.set (.array [.int 5])) := by decide +kernel
    obtain ⟨slot, v, hslot, hv, hholds⟩ := (h prices List.mem_cons_self).2 (by simp [hmember])
    obtain rfl := Option.some.inj (hget.symm.trans hslot)
    obtain rfl := Slot.set.inj (Option.some.inj (hget'.symm.trans hv))
    simp [Holds, prices, Host.contents, Value.asArray] at hholds

end OptionsCode

end CommandSchema.Generated
