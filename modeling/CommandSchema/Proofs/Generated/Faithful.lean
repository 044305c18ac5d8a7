import CommandSchema.Proofs.Generated.Declared
import CommandSchema.Proofs.Generated.Normal
import Mathlib.Tactic.TFAE

/-!
# Generated code is faithful

The header and the source of the parsers tell a schema: its commands and their fields in order, each
with all that it says but for one mark, which no file tells.

* `Schema.SameCode`: schemas that differ in such marks alone.
* `Code.arms`, `Code.blocks`, `Code.instructions`: the parts of structured code.
* `ArgvCode.outline`: the commands and the flags in the code of the parser.
* `artifacts_tfae_of_load`: the same files are generated exactly for such schemas.
-/

namespace CommandSchema

/-! ## Statement -/

/-- The fields are the same, but for the mark of an optional field on arrays with an initializer. -/
structure Field.SameCode (f g : Field) : Prop where
  flag : f.flag = g.flag
  name : f.name = g.name
  type : f.type = g.type
  isArray : f.isArray = g.isArray
  initial : f.initial = g.initial
  isOptional : f.isArray = false ∨ f.initial = none → f.isOptional = g.isOptional

/-- The commands have the same name and the same fields in the same order, but for such marks. -/
structure Command.SameCode (c d : Command) : Prop where
  name : c.name = d.name
  fields : List.Forall₂ Field.SameCode c.fields d.fields

/-- The schemas have the same commands in the same order, but for such marks. -/
def Schema.SameCode (s t : Schema) : Prop := List.Forall₂ Command.SameCode s.commands t.commands

/-! ## Fields with the same code -/

section Lists

variable {α β γ : Type}

/-- Lists with the same images under two functions are related member by member, if members with the
same images are. -/
theorem forall₂_of_map_eq {R : α → α → Prop} {f : α → β} {g : α → γ} {l l' : List α}
    (hf : l.map f = l'.map f) (hg : l.map g = l'.map g)
    (h : ∀ a ∈ l, ∀ b ∈ l', f a = f b → g a = g b → R a b) : List.Forall₂ R l l' := by
  induction l generalizing l' with
  | nil =>
    obtain rfl : l' = [] := List.map_eq_nil_iff.1 hf.symm
    exact .nil
  | cons a l ih =>
    cases l' with
    | nil => cases hf
    | cons b l' =>
      rw [List.map_cons, List.map_cons, List.cons.injEq] at hf hg
      refine .cons (h a List.mem_cons_self b List.mem_cons_self hf.1 hg.1) ?_
      exact ih hf.2 hg.2 fun a' ha b' hb =>
        h a' (List.mem_cons_of_mem _ ha) b' (List.mem_cons_of_mem _ hb)

theorem map_eq_of_forall₂ {R : α → α → Prop} {f : α → β} {l l' : List α}
    (h : List.Forall₂ R l l') (hf : ∀ a b, R a b → f a = f b) : l.map f = l'.map f := by
  induction h with
  | nil => rfl
  | cons hab _ ih => rw [List.map_cons, List.map_cons, hf _ _ hab, ih]

end Lists

theorem Field.SameCode.normal_eq {f g : Field} (h : f.SameCode g) : f.normal = g.normal := by
  have hoptional : (f.isOptional && !(f.isArray && f.initial.isSome)) =
      (g.isOptional && !(g.isArray && g.initial.isSome)) := by
    rw [← h.isArray, ← h.initial]
    cases hm : f.isArray && f.initial.isSome with
    | true => rw [Bool.not_true, Bool.and_false, Bool.and_false]
    | false =>
      rw [Bool.and_eq_false_iff, Option.isSome_eq_false_iff, Option.isNone_iff_eq_none] at hm
      rw [h.isOptional hm]
  rw [Field.normal, Field.normal, Field.mk.injEq]
  exact ⟨h.flag, h.name, h.type, hoptional, h.isArray, h.initial⟩

theorem Schema.SameCode.normal_eq {s t : Schema} (h : s.SameCode t) : s.normal = t.normal := by
  have hcommand : ∀ c d : Command, c.SameCode d → c.normal = d.normal := by
    intro c d hcd
    rw [Command.normal, Command.normal, hcd.name,
      map_eq_of_forall₂ hcd.fields fun _ _ hfg => hfg.normal_eq]
  rw [Schema.normal, Schema.normal, map_eq_of_forall₂ h hcommand]

/-- A field is told by its flag, its declaration and whether it has to be supplied, but for the mark
that no code tells. -/
theorem Field.sameCode_of_declaration {f g : Field} (hf : f.IsWritten) (hg : g.IsWritten)
    (hflag : f.flag = g.flag) (hdeclaration : f.declaration = g.declaration)
    (hrequired : f.isRequired = g.isRequired) : f.SameCode g := by
  obtain ⟨hname, htype, harray, hinitial, hoptional⟩ := (declaration_eq_iff hf hg).1 hdeclaration
  refine ⟨hflag, hname, htype, harray, hinitial, fun h => ?_⟩
  obtain hplain | hnone := h
  · exact hoptional hplain
  · have hnone' : g.initial = none := hinitial ▸ hnone
    simpa [isRequired, mayBeAbsent, hnone, hnone'] using hrequired

/-! ## Parts of structured code -/

namespace Generated

open Layout

section Code

variable {I H T : Type} {g : I → I}

/-- The tests of a chain with their code. -/
def Arms.items : Arms I H T → List (T × Code I H T)
  | .otherwise _ => []
  | .arm test body rest => (test, body) :: rest.items

/-- The arms of the chains in code that are in no block. -/
def Code.arms : Code I H T → List (T × Code I H T)
  | .done => []
  | .run _ next | .block _ _ next => next.arms
  | .choose arms next => arms.items ++ next.arms

/-- The code of the blocks in code that are in no other block. -/
def Code.blocks : Code I H T → List (Code I H T)
  | .done => []
  | .run _ next | .choose _ next => next.blocks
  | .block _ body next => body :: next.blocks

/-- The instructions in code that are in no block. -/
def Code.instructions : Code I H T → List I
  | .done => []
  | .run i next => i :: next.instructions
  | .block _ _ next | .choose _ next => next.instructions

theorem Arms.items_map (arms : Arms I H T) :
    (arms.map g).items = arms.items.map fun a => (a.1, a.2.map g) := by
  fun_induction Arms.items arms with
  | case1 => rfl
  | case2 test body rest ih => exact congrArg (_ :: ·) ih

theorem Code.arms_map (c : Code I H T) :
    (c.map g).arms = c.arms.map fun a => (a.1, a.2.map g) := by
  fun_induction Code.arms c with
  | case1 => rfl
  | case2 i next ih => exact ih
  | case3 head body next ih => exact ih
  | case4 arms next ih => rw [Code.map, Code.arms, arms.items_map, ih, List.map_append]

theorem Code.blocks_map (c : Code I H T) : (c.map g).blocks = c.blocks.map (·.map g) := by
  fun_induction Code.blocks c with
  | case1 => rfl
  | case2 i next ih => exact ih
  | case3 arms next ih => exact ih
  | case4 head body next ih => exact congrArg (_ :: ·) ih

theorem Code.instructions_map (c : Code I H T) :
    (c.map g).instructions = c.instructions.map g := by
  fun_induction Code.instructions c with
  | case1 => rfl
  | case2 i next ih => exact congrArg (_ :: ·) ih
  | case3 head body next ih => exact ih
  | case4 arms next ih => exact ih

theorem Arms.items_ofList (arms : List (T × Code I H T)) (otherwise : Code I H T) :
    (Arms.ofList arms otherwise).items = arms := by
  induction arms with
  | nil => rfl
  | cons a arms ih => exact congrArg (a :: ·) ih

theorem Code.blocks_runAll (is : List I) (next : Code I H T) :
    (Code.runAll is next).blocks = next.blocks := by
  induction is with
  | nil => rfl
  | cons i is ih => exact ih

end Code

/-! ## The outline of the parser -/

namespace ArgvCode

/-- The instruction makes a local true. -/
def Instruction.isMark : Instruction → Bool
  | .mark _ => true
  | _ => false

theorem Instruction.isMark_shown (i : Instruction) : i.shown.isMark = i.isMark := by
  cases i <;> rfl

/-- The outline of a parser: the tests of its branches, each with the tests of the chains in the
blocks of the branch, and whether a local is made true where such a test holds. -/
def outline (program : Body) : List (Test × List (Test × Bool)) :=
  program.arms.map fun branch => (branch.1, (branch.2.blocks.flatMap (·.arms)).map fun arm =>
    (arm.1, arm.2.instructions.any (·.isMark)))

theorem outline_shown (program : Body) :
    outline (program.map Instruction.shown) = outline program := by
  have hmark : Instruction.isMark ∘ Instruction.shown = Instruction.isMark :=
    funext Instruction.isMark_shown
  have harms : ∀ blocks : List Body,
      ((blocks.map (·.map Instruction.shown)).flatMap (·.arms)).map
        (fun arm => (arm.1, arm.2.instructions.any (·.isMark))) =
      (blocks.flatMap (·.arms)).map fun arm => (arm.1, arm.2.instructions.any (·.isMark)) := by
    intro blocks
    induction blocks with
    | nil => rfl
    | cons block blocks ih =>
      rw [List.map_cons, List.flatMap_cons, List.flatMap_cons, List.map_append, List.map_append, ih,
        Code.arms_map, List.map_map]
      congr 1
      refine List.map_congr_left fun arm _ => ?_
      rw [Function.comp_apply, Code.instructions_map, List.any_map, hmark]
  rw [outline, outline, Code.arms_map, List.map_map]
  refine List.map_congr_left fun branch _ => ?_
  rw [Function.comp_apply, Code.blocks_map, harms]

/-- Where a flag has been read, a local is made true exactly if the field has to be supplied. -/
theorem any_isMark_supply (f : Field) :
    (supply f).instructions.any (·.isMark) = f.isRequired := by
  have hlast : ((if f.isRequired then .run (.mark (seenLocal f)) .done else .done :
      Body).instructions).any (·.isMark) = f.isRequired := by
    cases f.isRequired <;> rfl
  have hassignment : ∀ next : Body,
      (assignment f next).instructions.any (·.isMark) = next.instructions.any (·.isMark) := by
    intro next
    unfold assignment
    split_ifs
    · rfl
    · rfl
    · rfl
  show (assignment f _).instructions.any (·.isMark) = _
  rw [hassignment, hlast]

/-- The chains in the blocks of a command test its flags. -/
theorem arms_commandCode (c : Command) :
    (commandCode c).blocks.flatMap (·.arms) = c.fields.map fun f => (.flag f.flag, supply f) := by
  have hcheck : ∀ locals : List String,
      (checkSeen locals (.run .accept .done)).blocks.flatMap (·.arms) = [] := by
    intro locals
    unfold checkSeen
    split_ifs <;> rfl
  have hflags : (flagCode c).arms = c.fields.map fun f => (.flag f.flag, supply f) := by
    show (Arms.ofList _ _).items ++ [] = _
    rw [Arms.items_ofList, List.append_nil]
  unfold commandCode
  split_ifs with hempty
  · rw [List.isEmpty_iff.1 hempty]
    rfl
  · show ((Code.runAll _ _).blocks).flatMap (·.arms) = _
    rw [Code.blocks_runAll, Code.blocks, List.flatMap_cons, hcheck, List.append_nil, hflags]

/-- The parser tells the names of the commands and, for each, the flags of its fields and whether
they have to be supplied. -/
theorem outline_ofSchema (s : Schema) : outline (ofSchema s) = s.commands.map fun c =>
    (.command c.name, c.fields.map fun f => (.flag f.flag, f.isRequired)) := by
  have harms : (ofSchema s).arms = s.commands.map fun c => (.command c.name, commandCode c) := by
    show (Arms.ofList _ _).items ++ [] = _
    rw [Arms.items_ofList, List.append_nil]
  rw [outline, harms, List.map_map]
  refine List.map_congr_left fun c _ => ?_
  rw [Function.comp_apply, arms_commandCode, List.map_map]
  exact congrArg _ (List.map_congr_left fun f _ => by rw [Function.comp_apply, any_isMark_supply])

end ArgvCode

/-! ## What the files tell -/

section Loaded

variable {foreignTypes foreignTypes' : List String} {s t : Schema}

/-- The parts of a header and of a source that depend on the schema alone tell the schema. -/
theorem sameCode_of_bodies (hs : s.IsLoaded foreignTypes) (ht : t.IsLoaded foreignTypes')
    (hheader : (bodies s).header = (bodies t).header)
    (hsource : (bodies s).source = (bodies t).source) : s.SameCode t := by
  have hrecords : s.commands.map (fun c => (structRest c, c.fields.map (·.declaration))) =
      t.commands.map fun c => (structRest c, c.fields.map (·.declaration)) := by
    rw [← (blocksAfter_struct hs.written {}).body, ← (blocksAfter_struct ht.written {}).body]
    exact congrArg _ hheader
  have hprograms : (ArgvCode.ofSchema s).map ArgvCode.Instruction.shown =
      (ArgvCode.ofSchema t).map ArgvCode.Instruction.shown := by
    refine Option.some.inj ?_
    rw [← (ArgvCode.readAs_program? hs.written hs.rules.nonempty {}).body,
      ← (ArgvCode.readAs_program? ht.written ht.rules.nonempty {}).body]
    exact congrArg _ hsource
  have houtline := congrArg ArgvCode.outline hprograms
  rw [ArgvCode.outline_shown, ArgvCode.outline_shown, ArgvCode.outline_ofSchema,
    ArgvCode.outline_ofSchema] at houtline
  refine forall₂_of_map_eq hrecords houtline fun c hc d hd hrecord hbranch => ?_
  obtain ⟨hname, hflags⟩ := Prod.mk.inj hbranch
  refine ⟨ArgvCode.Test.command.inj hname, ?_⟩
  refine forall₂_of_map_eq (Prod.mk.inj hrecord).2 hflags fun f hf g hg hdeclaration hflag => ?_
  obtain ⟨hflag, hrequired⟩ := Prod.mk.inj hflag
  exact Field.sameCode_of_declaration ((hs.written.commands c hc).fields f hf)
    ((ht.written.commands d hd).fields g hg) (ArgvCode.Test.flag.inj hflag) hdeclaration hrequired

end Loaded

/-- Nothing of a schema is lost when files are generated, but for the mark of an optional field where
it changes nothing: the header and the source of the parsers tell everything else, whatever texts
the schema and the configuration hold, and schemas that differ in such marks alone have the same
files. -/
theorem artifacts_tfae_of_load {text text' : String} {config config' : Config} {s t : Schema}
    (hs : Schema.load text config = .ok s) (ht : Schema.load text' config' = .ok t)
    (emission : Config) :
    [Artifacts.ofSchema s emission = Artifacts.ofSchema t emission,
      (Artifacts.ofSchema s emission).header = (Artifacts.ofSchema t emission).header ∧
        (Artifacts.ofSchema s emission).source = (Artifacts.ofSchema t emission).source,
      s.SameCode t].TFAE := by
  have hl := Schema.isLoaded_of_load hs
  have hl' := Schema.isLoaded_of_load ht
  tfae_have 1 → 2 := fun h => ⟨congrArg Artifacts.header h, congrArg Artifacts.source h⟩
  tfae_have 2 → 3 := by
    rintro ⟨hheader, hsource⟩
    obtain ⟨hheader, hsource⟩ := bodies_eq_of_files_eq hl.written hl'.written hl.rules.nonempty
      hl'.rules.nonempty hheader hsource
    exact sameCode_of_bodies hl hl' hheader hsource
  tfae_have 3 → 1 := by
    intro h
    rw [← Artifacts.ofSchema_normal, h.normal_eq, Artifacts.ofSchema_normal]
  tfae_finish

/-- A mark on an array with an initializer is not told. An initializer is, though it reads as the
declaration of another member. -/
theorem artifacts_tfae_of_load_prices :
    let prices : Field := ⟨"-p", "prices", .int, false, true, some "\x7b1\x7d"⟩
    let marked : Field := { prices with isOptional := true }
    let more : Field := { prices with initial := some "\x7b1\x7d; int more = 2" }
    let s : Schema := ⟨[⟨"buy", [prices]⟩]⟩
    let t : Schema := ⟨[⟨"buy", [marked]⟩]⟩
    let u : Schema := ⟨[⟨"buy", [more]⟩]⟩
    Schema.load "buy:\n  -p: int prices[] = \x7b1\x7d\n" {} = .ok s ∧
      Schema.load "buy:\n  -p: int prices?[] = \x7b1\x7d\n" {} = .ok t ∧
      Schema.load "buy:\n  -p: int prices[] = \x7b1\x7d; int more = 2\n" {} = .ok u ∧
      s ≠ t ∧ Artifacts.ofSchema s {} = Artifacts.ofSchema t {} ∧
      ¬ ((Artifacts.ofSchema s {}).header = (Artifacts.ofSchema u {}).header ∧
        (Artifacts.ofSchema s {}).source = (Artifacts.ofSchema u {}).source) := by
  intro prices marked more s t u
  have hs : Schema.load "buy:\n  -p: int prices[] = \x7b1\x7d\n" {} = .ok s :=
    Schema.load_of_toOption (by decide +kernel)
  have ht : Schema.load "buy:\n  -p: int prices?[] = \x7b1\x7d\n" {} = .ok t :=
    Schema.load_of_toOption (by decide +kernel)
  have hu : Schema.load "buy:\n  -p: int prices[] = \x7b1\x7d; int more = 2\n" {} = .ok u :=
    Schema.load_of_toOption (by decide +kernel)
  have hmarks : s.SameCode t := by
    refine .cons ⟨rfl, .cons ⟨rfl, rfl, rfl, rfl, rfl, ?_⟩ .nil⟩ .nil
    rintro (h | h) <;> cases h
  have hmore : ¬ s.SameCode u := by
    intro h
    obtain ⟨⟨-, hfields⟩, -⟩ := List.forall₂_cons.1 h
    obtain ⟨hfield, -⟩ := List.forall₂_cons.1 hfields
    exact absurd hfield.initial (by decide)
  refine ⟨hs, ht, hu, by decide, ((artifacts_tfae_of_load hs ht {}).out 0 2).2 hmarks, fun h => ?_⟩
  exact hmore (((artifacts_tfae_of_load hs hu {}).out 1 2).1 h)

end Generated

end CommandSchema
