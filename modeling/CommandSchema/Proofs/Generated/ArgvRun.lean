import CommandSchema.Proofs.Generated.ArgvText
import CommandSchema.Proofs.Generated.Host
import CommandSchema.Proofs.Generated.Machine
import CommandSchema.Proofs.Invocation.Argv

/-!
# What the parser does

The parser of argument vectors is run as the program that is read from its text. An expression
makes of an argument what the reference makes of a token, and cutting at a separator drops empty
pieces. What an initializer stands for is left open.

* `ArgvCode.machine`: what the instructions, tests and heads of the parser do.
* `ArgvCode.Follows`: the state of the parser that has read some pairs.
* `ArgvCode.loop_eq_readPairs`: the loop reads the pairs that the reference reads.
* `ArgvCode.run_program`: the parser does what the reference does.
-/

namespace CommandSchema.Generated.ArgvCode

/-! ## The machine -/

/-- The variables of the parser. What has been declared in a block is not forgotten after it. -/
structure State where
  /-- The index of the argument at hand. -/
  index : Nat
  command : Option String := none
  flag : Option String := none
  token : Option String := none
  pieces : Option (List String) := none
  piece : Option String := none
  /-- The locals, the latest value of each one first. -/
  locals : List (String × Bool) := []
  record : Option Record := none

/-- What the parser returns. -/
inductive Result where
  | exception
  | command (record : Record)
  deriving DecidableEq, Repr

/-- What is returned for what the reference yields. -/
def Result.ofReference : Except ArgvError Record → Result
  | .error _ => .exception
  | .ok r => .command r

/-- What is done for every argument from the one at hand on, in at most so many rounds. -/
def eachArgument (count : Nat) (body : State → Flow State Result) : Nat → State → Flow State Result
  | 0, _ => .stuck
  | rounds + 1, σ =>
    if σ.index < count then
      (body σ).andThen fun σ => eachArgument count body rounds { σ with index := σ.index + 1 }
    else .next σ

/-- What is done for every piece. -/
def eachPiece (body : State → Flow State Result) : List String → State → Flow State Result
  | [], σ => .next σ
  | piece :: pieces, σ =>
    (body { σ with piece := some piece }).andThen fun σ => eachPiece body pieces σ

variable (host : Host) (argv : List String)

/-- What an instruction does. -/
def step : Instruction → State → Flow State Result
  | .reject, _ => .returned .exception
  | .acceptNew name, _ =>
    match host.struct? name with
    | some c => .returned (.command c.initialRecord)
    | none => .stuck
  | .accept, σ =>
    match σ.record with
    | some r => .returned (.command r)
    | none => .stuck
  | .nameCommand, σ => .ofOption (argv[0]?.map fun a => { σ with command := some a })
  | .newRecord name, σ =>
    .ofOption ((host.struct? name).map fun c => { σ with record := some c.initialRecord })
  | .newLocal name, σ => .next { σ with locals := (name, false) :: σ.locals }
  | .mark name, σ =>
    .ofOption ((σ.locals.lookup name).map fun _ => { σ with locals := (name, true) :: σ.locals })
  | .nameFlag, σ => .ofOption (argv[σ.index]?.map fun a => { σ with flag := some a })
  | .assign member type, σ => .ofOption do
    let a ← argv[σ.index]?
    let r ← host.assign? (← σ.record) member (type.ofToken a)
    return { σ with record := some r }
  | .nameToken, σ => .ofOption (argv[σ.index]?.map fun a => { σ with token := some a })
  | .assignPieces member, σ => .ofOption do
    let a ← σ.token
    let r ← host.assignAll? (← σ.record) member ((Field.tokenPieces a).map .string)
    return { σ with record := some r }
  | .namePieces, σ =>
    .ofOption (σ.token.map fun a => { σ with pieces := some (Field.tokenPieces a) })
  | .clear member, σ => .ofOption do
    let r ← host.assignAll? (← σ.record) member []
    return { σ with record := some r }
  | .reserve _, σ => .ofOption (σ.pieces.map fun _ => σ)
  | .append member type, σ => .ofOption do
    let a ← σ.piece
    let r ← host.append? (← σ.record) member (type.ofToken a)
    return { σ with record := some r }

/-- Whether a test holds, and the state after it. -/
def test : Test → State → Option (State × Bool)
  | .noArguments, σ => some (σ, argv.length == 0)
  | .command name, σ => σ.command.map fun a => (σ, name == a)
  | .flag name, σ => σ.flag.map fun a => (σ, name == a)
  | .nextIsMissing, σ =>
    some ({ σ with index := σ.index + 1 }, decide (argv.length ≤ σ.index + 1))
  | .anyUnseen names, σ =>
    (names.mapM fun name => σ.locals.lookup name).map fun seen => (σ, seen.any (! ·))

/-- What a block does. -/
def block : Head → (State → Flow State Result) → State → Flow State Result
  | .when t, body, σ =>
    match test argv t σ with
    | some (σ, true) => body σ
    | some (σ, false) => .next σ
    | none => .stuck
  | .eachArgument, body, σ =>
    eachArgument argv.length body (argv.length + 1) { σ with index := 1 }
  | .eachPiece, body, σ =>
    match σ.pieces with
    | some pieces => eachPiece body pieces σ
    | none => .stuck

/-- What the parser does with an argument vector. -/
def machine : Machine Instruction Head Test State Result where
  step := step host argv
  test := test argv
  block := block argv

/-- The parser run on an argument vector. -/
def run (program : Body) : Flow State Result := program.exec (machine host argv) { index := 0 }

/-! ## One field -/

/-- The machine that the emitted code is run on: it reads every instruction as its text shows it. -/
def shownMachine : Machine Instruction Head Test State Result :=
  (machine host argv).withStep Instruction.shown

variable {host argv} {c : Command} {f : Field} {r : Record}

/-- A member holds of the value that the text of an expression makes what its type makes. -/
theorem hold_shown (t : FieldType) (token : String) :
    t.hold (t.shown.ofToken token) = t.ofToken token := by
  cases t <;> rfl

/-- The pieces of an array are appended one by one. -/
theorem eachPiece_append (hr : host.Knows c r) (hf : f ∈ c.fields) (ha : f.isArray = true)
    (pieces : List String) (σ : State) (vs : List Value)
    (hσ : σ.record = some (r.set f.name (.array vs))) :
    ∃ σ', eachPiece (fun σ => Code.exec (shownMachine host argv)
          (.run (.append f.name f.type) .done) σ) pieces σ = .next σ' ∧
      σ'.record = some (r.set f.name (.array (vs ++ pieces.map f.type.ofToken))) ∧
      σ'.index = σ.index ∧ σ'.locals = σ.locals := by
  induction pieces generalizing σ vs with
  | nil => exact ⟨σ, rfl, by rw [hσ, List.map_nil, List.append_nil], rfl, rfl⟩
  | cons piece pieces ih =>
    let τ : State := { σ with
      piece := some piece
      record := some (r.set f.name (.array (vs ++ [f.type.ofToken piece]))) }
    have hstep : Code.exec (shownMachine host argv) (.run (.append f.name f.type) .done)
        { σ with piece := some piece } = .next τ := by
      have happend := (hr.set f.name (.array vs)).append? hf ha
        (Record.get?_set_self (hr.members f hf) _)
        (f.type.shown.ofToken piece)
      rw [hold_shown, Record.set_set] at happend
      simp [Code.exec, shownMachine, Machine.withStep, machine, Instruction.shown, step, hσ,
        happend, Flow.ofOption, Host.contents, Value.asArray, τ]
    obtain ⟨σ', hrun, hrecord, hindex, hlocals⟩ := ih τ (vs ++ [f.type.ofToken piece]) rfl
    refine ⟨σ', ?_, by simpa using hrecord, hindex, hlocals⟩
    rw [eachPiece, hstep]
    exact hrun

/-- The pieces of the argument at hand replace the elements of an array. -/
theorem exec_assignPieces (hr : host.Knows c r) (hf : f ∈ c.fields) (ha : f.isArray = true)
    {σ : State} (hσ : σ.record = some r) {token : String} (ht : argv[σ.index]? = some token)
    (next : Body) :
    ∃ σ', Code.exec (shownMachine host argv)
          (.runAll [.nameToken, .namePieces, .clear f.name, .reserve f.name] <|
            .block .eachPiece (.run (.append f.name f.type) .done) next) σ =
        next.exec (shownMachine host argv) σ' ∧
      σ'.record = some (r.set f.name (.array ((Field.tokenPieces token).map f.type.ofToken))) ∧
      σ'.index = σ.index ∧ σ'.locals = σ.locals := by
  let τ₁ : State := { σ with token := some token }
  let τ₂ : State := { τ₁ with pieces := some (Field.tokenPieces token) }
  let τ₃ : State := { τ₂ with record := some (r.set f.name (.array [])) }
  have hname : (shownMachine host argv).step .nameToken σ = .next τ₁ := by
    show Flow.ofOption (argv[σ.index]?.map _) = _
    rw [ht]
    rfl
  have hpieces : (shownMachine host argv).step .namePieces τ₁ = .next τ₂ := rfl
  have hclear : (shownMachine host argv).step (.clear f.name) τ₂ = .next τ₃ := by
    show Flow.ofOption (do
      let r ← host.assignAll? (← σ.record) f.name []
      return { τ₂ with record := some r }) = _
    rw [hσ, Option.bind_eq_bind, Option.bind_some, hr.assignAll? hf ha]
    rfl
  have hreserve : (shownMachine host argv).step (.reserve f.name) τ₃ = .next τ₃ := rfl
  obtain ⟨σ', hrun, hrecord, hindex, hlocals⟩ :=
    eachPiece_append hr hf ha (Field.tokenPieces token) τ₃ [] rfl
  refine ⟨σ', ?_, by simpa using hrecord, hindex, hlocals⟩
  refine (Code.exec_run hname _).trans ?_
  refine (Code.exec_run hpieces _).trans ?_
  refine (Code.exec_run hclear _).trans ?_
  refine (Code.exec_run hreserve _).trans ?_
  exact Code.exec_block hrun next

/-- The argument at hand goes to the member of a field as the reference reads it. -/
theorem exec_assignment (hr : host.Knows c r) (hf : f ∈ c.fields) {σ : State}
    (hσ : σ.record = some r) {token : String} (ht : argv[σ.index]? = some token) (next : Body) :
    ∃ σ', Code.exec (shownMachine host argv) (assignment f next) σ =
        next.exec (shownMachine host argv) σ' ∧
      σ'.record = some (r.set f.name (f.ofToken token)) ∧ σ'.index = σ.index ∧
      σ'.locals = σ.locals := by
  unfold assignment
  cases ha : f.isArray with
  | false =>
    rw [Field.ofToken_of_not_isArray ha]
    have hassign := hr.assign? hf ha (f.type.shown.ofToken token)
    rw [hold_shown] at hassign
    refine ⟨{ σ with record := some (r.set f.name (f.type.ofToken token)) }, ?_, rfl, rfl, rfl⟩
    simp [Code.exec, shownMachine, Machine.withStep, machine, Instruction.shown, step, hσ, ht,
      hassign, Flow.ofOption]
  | true =>
    rw [if_pos rfl, Field.ofToken_of_isArray ha]
    by_cases hs : f.type = .string
    · -- Texts are assigned at once, and as they are.
      have hassign := hr.assignAll? hf ha ((Field.tokenPieces token).map .string)
      have hitems : ((Field.tokenPieces token).map Value.string).map f.type.hold =
          (Field.tokenPieces token).map f.type.ofToken := by
        rw [List.map_map, hs]
        rfl
      rw [hitems] at hassign
      refine ⟨{ σ with
        token := some token
        record := some (r.set f.name (.array ((Field.tokenPieces token).map f.type.ofToken))) },
        ?_, rfl, rfl, rfl⟩
      rw [if_pos hs]
      simp [Code.runAll, Code.exec, shownMachine, Machine.withStep, machine, Instruction.shown,
        step, hσ, ht, hassign, Flow.ofOption]
    · rw [if_neg hs]
      exact exec_assignPieces hr hf ha hσ ht next

theorem exec_rejectWhen (t : Test) (next : Body) (σ : State) :
    (rejectWhen t next).exec (shownMachine host argv) σ =
      match test argv t σ with
      | some (_, true) => .returned .exception
      | some (σ, false) => next.exec (shownMachine host argv) σ
      | none => .stuck := by
  show (block argv (.when t) _ σ).andThen _ = _
  cases h : test argv t σ with
  | none => simp only [block, h, Flow.stuck_andThen]
  | some p =>
    obtain ⟨τ, holds⟩ := p
    cases holds with
    | true => simp only [block, h]; rfl
    | false => simp only [block, h, Flow.next_andThen]

/-! ## The loop -/

/-- The parser that has read pairs: it has the record that they make, and a local of a field that
has to be supplied tells whether a field with its name has been. -/
structure Follows (host : Host) (c : Command) (r : Record) (seen : List Field) (σ : State) :
    Prop where
  knows : host.Knows c r
  record : σ.record = some r
  locals : ∀ f ∈ c.requiredFields,
    σ.locals.lookup (seenLocal f) = some (seen.any (·.name == f.name))

variable {foreignTypes : List String} {seen : List Field} {σ : State} {token : String}

theorem eq_of_seenLocal (hk : c.KeepsRules foreignTypes) {g : Field} (hf : f ∈ c.fields)
    (hg : g ∈ c.fields) (h : seenLocal f = seenLocal g) : f = g := by
  have hc : Text.capitalize f.name = Text.capitalize g.name := by
    simpa [seenLocal] using h
  exact List.inj_on_of_nodup_map hk.locals hf hg hc

theorem exec_supply_of_none (h : argv[σ.index + 1]? = none) (f : Field) :
    (supply f).exec (shownMachine host argv) σ = .returned .exception := by
  have hl : argv.length ≤ σ.index + 1 := List.getElem?_eq_none_iff.1 h
  rw [supply, exec_rejectWhen]
  simp only [test, hl, decide_true]

/-- The code of a field takes the next argument. -/
theorem exec_supply (hk : c.KeepsRules foreignTypes) (hσ : Follows host c r seen σ)
    (hf : f ∈ c.fields) (ht : argv[σ.index + 1]? = some token) :
    ∃ σ', (supply f).exec (shownMachine host argv) σ = .next σ' ∧ σ'.index = σ.index + 1 ∧
      Follows host c (r.set f.name (f.ofToken token)) (seen ++ [f]) σ' := by
  have hl : ¬ argv.length ≤ σ.index + 1 := by
    have := (List.getElem?_eq_some_iff.1 ht).1
    omega
  let τ : State := { σ with index := σ.index + 1 }
  rw [supply, exec_rejectWhen]
  simp only [test, hl, decide_false]
  obtain ⟨σ', hrun, hrecord, hindex, hlocals⟩ :=
    exec_assignment (σ := τ) hσ.knows hf hσ.record ht
      (if f.isRequired then .run (.mark (seenLocal f)) .done else .done)
  rw [hrun]
  have hseen : ∀ g ∈ c.requiredFields,
      σ'.locals.lookup (seenLocal g) = some (seen.any (·.name == g.name)) := by
    rw [hlocals]
    exact hσ.locals
  -- A field that has to be supplied marks its own local, and no other field has a local of that
  -- name. Any other field marks nothing, and no field that has to be supplied has its name.
  by_cases hreq : f.isRequired = true
  · have hfr : f ∈ c.requiredFields := List.mem_filter.2 ⟨hf, hreq⟩
    rw [if_pos hreq]
    refine ⟨{ σ' with locals := (seenLocal f, true) :: σ'.locals }, ?_, hindex,
      hσ.knows.set _ _, hrecord, fun g hg => ?_⟩
    · have hmark : (shownMachine host argv).step (.mark (seenLocal f)) σ' =
          .next { σ' with locals := (seenLocal f, true) :: σ'.locals } := by
        show Flow.ofOption ((σ'.locals.lookup (seenLocal f)).map _) = _
        rw [hseen f hfr]
        rfl
      exact Code.exec_run hmark .done
    · have hgf := (List.mem_filter.1 hg).1
      by_cases hne : g.name = f.name
      · have hgf : g = f := eq_of_seenLocal hk hgf hf (by simp [seenLocal, hne])
        simp [hgf]
      · have hl : seenLocal g ≠ seenLocal f :=
          fun h => hne (congrArg Field.name (eq_of_seenLocal hk hgf hf h))
        show List.lookup _ (_ :: σ'.locals) = _
        rw [List.lookup_cons, beq_eq_false_iff_ne.2 hl]
        simp [hseen g hg, Ne.symm hne]
  · rw [if_neg hreq]
    refine ⟨σ', rfl, hindex, hσ.knows.set _ _, hrecord, fun g hg => ?_⟩
    obtain ⟨hgf, hgreq⟩ := List.mem_filter.1 hg
    have hne : f.name ≠ g.name := by
      intro h
      have : f = g := eq_of_seenLocal hk hf hgf (by simp [seenLocal, h])
      exact hreq (this ▸ hgreq)
    simp [hseen g hg, hne]

theorem exec_flagCode {flag : String} (h : argv[σ.index]? = some flag) (c : Command) :
    (flagCode c).exec (shownMachine host argv) σ =
      match c.fieldByFlag? flag with
      | some f => (supply f).exec (shownMachine host argv) { σ with flag := some flag }
      | none => .returned .exception := by
  have hname : (shownMachine host argv).step .nameFlag σ = .next { σ with flag := some flag } := by
    show Flow.ofOption (argv[σ.index]?.map _) = _
    rw [h]
    rfl
  have harms := Arms.exec_ofList (m := shownMachine host argv) (fun f => .flag f.flag) supply
    (fun f => f.flag == flag) (l := c.fields) (o := .run .reject .done)
    (s := { σ with flag := some flag }) fun f _ => rfl
  refine (Code.exec_run hname _).trans ?_
  show (Arms.exec _ _ _).andThen .next = _
  rw [Flow.andThen_next, harms, Command.fieldByFlag?]
  cases c.fields.find? (·.flag == flag) <;> rfl

/-- The loop of a command, from the argument at hand on. -/
def loop (host : Host) (argv : List String) (c : Command) (rounds : Nat) (σ : State) :
    Flow State Result :=
  eachArgument argv.length (fun σ => (flagCode c).exec (shownMachine host argv) σ) rounds σ

theorem loop_succ_of_none {flag : String} (h : argv[σ.index]? = some flag)
    (hf : c.fieldByFlag? flag = none) (rounds : Nat) :
    loop host argv c (rounds + 1) σ = .returned .exception := by
  have hl : σ.index < argv.length := (List.getElem?_eq_some_iff.1 h).1
  rw [loop, eachArgument, if_pos hl, exec_flagCode h, hf]
  rfl

/-- A round of the loop runs the code of the field with the flag. -/
theorem loop_succ_of_some {flag : String} (h : argv[σ.index]? = some flag)
    (hf : c.fieldByFlag? flag = some f) (rounds : Nat) :
    loop host argv c (rounds + 1) σ =
      ((supply f).exec (shownMachine host argv) { σ with flag := some flag }).andThen
        fun σ => loop host argv c rounds { σ with index := σ.index + 1 } := by
  have hl : σ.index < argv.length := (List.getElem?_eq_some_iff.1 h).1
  rw [loop, eachArgument, if_pos hl, exec_flagCode h, hf]
  rfl

/-- One round of the loop reads one pair. -/
theorem loop_round (hk : c.KeepsRules foreignTypes) (hσ : Follows host c r seen σ) {flag : String}
    (hflag : argv[σ.index]? = some flag) (htoken : argv[σ.index + 1]? = some token)
    (hf : c.fieldByFlag? flag = some f) (rounds : Nat) :
    ∃ τ, loop host argv c (rounds + 1) σ = loop host argv c rounds τ ∧ τ.index = σ.index + 2 ∧
      Follows host c (r.set f.name (f.ofToken token)) (seen ++ [f]) τ := by
  obtain ⟨τ, hrun, hindex, hτ⟩ :=
    exec_supply (σ := { σ with flag := some flag }) hk ⟨hσ.knows, hσ.record, hσ.locals⟩
      (List.mem_of_find?_eq_some hf) htoken
  refine ⟨{ τ with index := τ.index + 1 }, ?_, ?_, hτ.knows, hτ.record, hτ.locals⟩
  · rw [loop_succ_of_some hflag hf, hrun]
    rfl
  · show τ.index + 1 = σ.index + 2
    rw [hindex]

/-- Round after round, the loop reads the pairs that the reference reads. -/
theorem loop_eq_readPairs (hk : c.KeepsRules foreignTypes) (hσ : Follows host c r seen σ)
    {args : List String} (hargs : argv.drop σ.index = args) {rounds : Nat}
    (hrounds : args.length < rounds) :
    match c.readPairs args with
    | .error _ => loop host argv c rounds σ = .returned .exception
    | .ok pairs => ∃ σ', loop host argv c rounds σ = .next σ' ∧
        Follows host c (r.setAll (pairs.map fun p => (p.1.name, p.1.ofToken p.2)))
          (seen ++ pairs.map (·.1)) σ' := by
  obtain ⟨rounds, rfl⟩ := Nat.exists_eq_succ_of_ne_zero (by omega : rounds ≠ 0)
  -- The arguments that are left start at the index, which every round moves by two.
  have hat : ∀ i, argv[σ.index + i]? = args[i]? := by
    intro i
    rw [← hargs, List.getElem?_drop]
  fun_induction Command.readPairs c args generalizing σ r seen rounds with
  | case1 =>
    have hl : ¬ σ.index < argv.length := by
      have := List.drop_eq_nil_iff.1 hargs
      omega
    refine ⟨σ, by rw [loop, eachArgument, if_neg hl], ?_⟩
    rw [List.map_nil, List.map_nil, List.append_nil]
    exact hσ
  | case2 flag hflag => exact loop_succ_of_none (hat 0) hflag rounds
  | case3 flag f hflag =>
    have hrun : (supply f).exec (shownMachine host argv) { σ with flag := some flag } =
        .returned .exception :=
      exec_supply_of_none (σ := { σ with flag := some flag }) (hat 1) f
    show loop host argv c (rounds + 1) σ = _
    rw [loop_succ_of_some (hat 0) hflag, hrun]
    rfl
  | case4 flag token args hflag => exact loop_succ_of_none (hat 0) hflag rounds
  | case5 flag token args f hflag ih =>
    obtain ⟨τ, hloop, hindex, hτ⟩ := loop_round hk hσ (hat 0) (hat 1) hflag rounds
    have hrest : argv.drop τ.index = args := by
      rw [hindex, ← List.drop_drop, hargs]
      rfl
    have hlt : args.length < rounds := by
      rw [List.length_cons, List.length_cons] at hrounds
      omega
    obtain ⟨rounds, rfl⟩ := Nat.exists_eq_succ_of_ne_zero (by omega : rounds ≠ 0)
    have ih := ih hτ hrest rounds hlt fun i => by rw [← hrest, List.getElem?_drop]
    rw [hloop]
    cases hpairs : c.readPairs args with
    | error e =>
      rw [hpairs] at ih
      exact ih
    | ok pairs =>
      rw [hpairs] at ih
      obtain ⟨σ', hrun', hσ'⟩ := ih
      have hseen : seen ++ ((f, token) :: pairs).map (·.1) = seen ++ [f] ++ pairs.map (·.1) := by
        rw [List.map_cons, List.append_assoc, List.singleton_append]
      refine ⟨σ', hrun', ?_⟩
      rw [hseen]
      exact hσ'

/-! ## A command -/

/-- Locals that have been declared are false. -/
theorem exec_newLocals (names : List String) (next : Body) (σ : State) :
    ∃ σ', (Code.runAll (names.map .newLocal) next).exec (shownMachine host argv) σ =
        next.exec (shownMachine host argv) σ' ∧ σ'.record = σ.record ∧
      ∀ n, n ∈ names ∨ σ.locals.lookup n = some false → σ'.locals.lookup n = some false := by
  induction names generalizing σ with
  | nil => exact ⟨σ, rfl, rfl, fun n hn => hn.resolve_left List.not_mem_nil⟩
  | cons name names ih =>
    obtain ⟨σ', hrun, hrecord, hlocals⟩ := ih { σ with locals := (name, false) :: σ.locals }
    refine ⟨σ', hrun, hrecord, fun n hn => hlocals n ?_⟩
    by_cases hne : n = name
    · exact .inr (by rw [hne, List.lookup_cons_self])
    · rcases hn with hn | hn
      · exact .inl ((List.mem_cons.1 hn).resolve_left hne)
      · refine .inr ?_
        rw [List.lookup_cons, beq_eq_false_iff_ne.2 hne]
        exact hn

theorem mapM_of_forall {α β : Type} {g : α → Option β} {v : α → β} {l : List α}
    (h : ∀ a ∈ l, g a = some (v a)) : l.mapM g = some (l.map v) := by
  induction l with
  | nil => rfl
  | cons a l ih =>
    rw [List.mapM_cons, h a List.mem_cons_self, ih fun b hb => h b (List.mem_cons_of_mem _ hb)]
    rfl

/-- The fields that have been seen are looked up in the locals. -/
theorem test_anyUnseen (hσ : Follows host c r seen σ) :
    test argv (.anyUnseen (c.requiredFields.map seenLocal)) σ =
      some (σ, !(c.missingFields seen).isEmpty) := by
  have hlocals : c.requiredFields.mapM (fun f => σ.locals.lookup (seenLocal f)) =
      some (c.requiredFields.map fun f => seen.any (·.name == f.name)) :=
    mapM_of_forall hσ.locals
  have hany : (c.requiredFields.map fun f => seen.any (·.name == f.name)).any (! ·) =
      !(c.missingFields seen).isEmpty := by
    rw [Bool.eq_iff_iff]
    simp [Command.missingFields]
  rw [test, List.mapM_map]
  show Option.map _ (c.requiredFields.mapM fun f => σ.locals.lookup (seenLocal f)) = _
  rw [hlocals, Option.map_some, hany]

theorem exec_checkSeen (hσ : Follows host c r seen σ) :
    (checkSeen (c.requiredFields.map seenLocal) (.run .accept .done)).exec
        (shownMachine host argv) σ =
      .returned (if (c.missingFields seen).isEmpty then .command r else .exception) := by
  have haccept : Code.exec (shownMachine host argv) (.run .accept .done) σ =
      .returned (.command r) := by
    refine Code.exec_run_returned ?_ .done
    show step host argv .accept σ = _
    simp only [step, hσ.record]
  unfold checkSeen
  by_cases hl : (c.requiredFields.map seenLocal).isEmpty = true
  · have hreq : c.requiredFields = [] := by simpa using hl
    rw [if_pos hl, haccept, Command.missingFields, hreq]
    rfl
  · rw [if_neg hl, exec_rejectWhen, test_anyUnseen hσ]
    cases hm : (c.missingFields seen).isEmpty with
    | true => exact haccept
    | false => rfl

/-- The code of a command does what the reference does with the arguments after the first one. -/
theorem exec_commandCode (hk : c.KeepsRules foreignTypes) (hc : host.Knows c c.initialRecord)
    (hname : host.struct? c.recordName = some c) (σ : State) :
    (commandCode c).exec (shownMachine host argv) σ =
      .returned (.ofReference (c.readRecord (argv.drop 1))) := by
  unfold commandCode Command.readRecord
  by_cases he : c.fields.isEmpty = true
  · rw [if_pos he, if_pos he]
    refine Code.exec_run_returned ?_ .done
    show step host argv (.acceptNew c.recordName) σ = _
    simp only [step, hname]
    rfl
  rw [if_neg he, if_neg he]
  have hnew : (shownMachine host argv).step (.newRecord c.recordName) σ =
      .next { σ with record := some c.initialRecord } := by
    show step host argv (.newRecord c.recordName) σ = _
    simp only [step, hname]
    rfl
  refine (Code.exec_run hnew _).trans ?_
  obtain ⟨σ₁, hrun, hrecord, hlocals⟩ :=
    exec_newLocals (c.requiredFields.map seenLocal)
      (.block .eachArgument (flagCode c) <|
        checkSeen (c.requiredFields.map seenLocal) (.run .accept .done))
      { σ with record := some c.initialRecord }
  rw [hrun]
  have hσ₁ : Follows host c c.initialRecord [] { σ₁ with index := 1 } :=
    ⟨hc, hrecord, fun f hf => hlocals _ (.inl (List.mem_map_of_mem hf))⟩
  have hlength : (argv.drop 1).length < argv.length + 1 := by
    rw [List.length_drop]
    omega
  have hloop := loop_eq_readPairs hk hσ₁ rfl hlength
  cases hpairs : c.readPairs (argv.drop 1) with
  | error e =>
    rw [hpairs] at hloop
    exact Code.exec_block_returned hloop _
  | ok pairs =>
    rw [hpairs] at hloop
    obtain ⟨σ₂, hrun₂, hσ₂⟩ := hloop
    refine (Code.exec_block hrun₂ _).trans ?_
    rw [exec_checkSeen hσ₂, List.nil_append]
    dsimp only
    cases c.missingFields (pairs.map (·.1)) <;> rfl

/-! ## A schema -/

variable {s : Schema}

theorem exec_ofSchema (hs : s.IsLoaded foreignTypes) (elements : String → List Value)
    (argv : List String) :
    (ofSchema s).exec (shownMachine (Host.ofSchema s elements) argv) { index := 0 } =
      .returned (.ofReference ((s.parseArgv argv).map (·.record))) := by
  rw [ofSchema, exec_rejectWhen]
  cases argv with
  | nil => rfl
  | cons name args =>
    show Code.exec (shownMachine (Host.ofSchema s elements) (name :: args)) _ { index := 0 } = _
    have hname : (shownMachine (Host.ofSchema s elements) (name :: args)).step .nameCommand
        { index := 0 } = .next { index := 0, command := some name } := rfl
    have harms := Arms.exec_ofList (m := shownMachine (Host.ofSchema s elements) (name :: args))
      (fun c => .command c.name) commandCode (fun c => c.name == name)
      (s := { index := 0, command := some name }) (l := s.commands) (o := .run .reject .done)
      fun c _ => rfl
    refine (Code.exec_run hname _).trans ?_
    show (Arms.exec _ _ _).andThen .next = _
    rw [Flow.andThen_next, harms, Schema.parseArgv, Schema.command?]
    cases hc : s.commands.find? (·.name == name) with
    | none => rfl
    | some c =>
      have hm : c ∈ s.commands := List.mem_of_find?_eq_some hc
      have hstruct : (Host.ofSchema s elements).struct? c.recordName = some c := hs.recordNamed hm
      show (commandCode c).exec _ _ = _
      rw [exec_commandCode (hs.rules.commands c hm) (Host.knows_initialRecord hs hm elements)
        hstruct, List.drop_one, List.tail_cons]
      dsimp only
      cases c.readRecord args <;> rfl

/-- What is read from the parser's text is a program, and on every argument vector it does what the
reference does: it ends with an exception where the reference rejects the vector, and else with the
record that the reference makes. -/
theorem run_program {text : String} {config : Config} (hs : Schema.load text config = .ok s)
    (emission : Config) (hn : '\n' ∉ emission.nameSpace.toList) (elements : String → List Value) :
    ∃ program, program? (Layout.render (source s emission)) = some program ∧
      ∀ argv, run (Host.ofSchema s elements) argv program =
        .returned (.ofReference ((s.parseArgv argv).map (·.record))) := by
  have hl := Schema.isLoaded_of_load hs
  refine ⟨_, program?_source hl.written hl.rules.nonempty hn, fun argv => ?_⟩
  rw [run, Code.exec_map]
  exact exec_ofSchema hl elements argv

/-- A repeated array with an initializer, and a text that is left out. -/
theorem run_program_purchase :
    let client : Field := ⟨"-c", "client", .string, false, false, none⟩
    let prices : Field := ⟨"-p", "prices", .int, false, true, some "\x7b1, 2\x7d"⟩
    let s : Schema := ⟨[⟨"buy", [client, prices]⟩]⟩
    let host := Host.ofSchema s fun _ => [.int 1, .int 2]
    Schema.load "buy:\n  -c: string client\n  -p: int prices[] = \x7b1, 2\x7d\n" {} = .ok s ∧
      ∃ program, program? (Layout.render (source s {})) = some program ∧
        run host ["buy", "-p", "5", "-c", "-p", "-p", "|7||8"] program =
          .returned (.command ⟨"Buy",
            [("client", .set (.string "-p")), ("prices", .set (.array [.int 7, .int 8]))]⟩) ∧
        run host ["buy", "-p", "5"] program = .returned .exception := by
  intro client prices s host
  have hs : Schema.load "buy:\n  -c: string client\n  -p: int prices[] = \x7b1, 2\x7d\n" {} =
      .ok s := Schema.load_of_toOption (by decide +kernel)
  obtain ⟨program, hp, hrun⟩ :=
    run_program hs {} (by decide +kernel) fun _ => [.int 1, .int 2]
  refine ⟨hs, program, hp, ?_, ?_⟩
  · rw [hrun]
    exact congrArg Flow.returned (by decide +kernel)
  · rw [hrun]
    exact congrArg Flow.returned (by decide +kernel)

end CommandSchema.Generated.ArgvCode
