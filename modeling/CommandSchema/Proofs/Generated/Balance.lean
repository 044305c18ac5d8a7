import CommandSchema.Generated.Artifacts
import CommandSchema.Proofs.Generated.ArgvText
import CommandSchema.Proofs.Generated.OptionsText
import CommandSchema.Proofs.Layout.Balance

/-!
# Balanced files

The steps of every generated file go in and out in pairs, and so do the parts that a command or a
field adds to one. A chain of a parser starts with the arm of its first command, so the source is
balanced exactly if there is one.

* `CommandBalance`, `FileBalance`: what is balanced.
* `Code.balanced_steps`: structured code, if its chains start with an arm.
* `balanced_source_iff`: the source, with and without a command.
* `balanced_files`: all files.
-/

namespace CommandSchema.Generated

open Layout

/-! ## Statement -/

/-- The parts of files that a command adds are balanced. -/
structure CommandBalance (c : Command) : Prop where
  record : Balanced (record c)
  /-- The branch of the parser. -/
  commandCode : Balanced ((ArgvCode.commandCode c).steps ArgvCode.writing)
  scriptFunction : Balanced (scriptFunction c)
  optionsInterface : Balanced (optionsInterface c)

/-- The files of a schema are balanced, except for the source of a schema without commands. -/
structure FileBalance (s : Schema) (config : Config) : Prop where
  header : Balanced (header s config)
  runHeader : Balanced (runHeader s config)
  source : Balanced (source s config) ↔ s.commands ≠ []
  bridge : Balanced (bridge s config)
  declarations : Balanced (declarations s config)

/-! ## Structured code -/

section Code

variable {I H T : Type} {w : Writing I H T} {G : Grammar I H T} {P : Mark I H T → Prop}

mutual

/-- Code is balanced if its chains start with an arm. -/
theorem Code.balanced_steps : (c : Code I H T) → c.AllMarks G P → Balanced (c.steps w)
  | .done, _ => balanced_nil
  | .run _ next, ⟨_, hn⟩ => (balanced_singleton rfl).append (next.balanced_steps hn)
  | .block h body next, ⟨_, hb, hn⟩ => by
    have hblock : Balanced (.opening (w.head h) :: (body.steps w ++ [.closing "\x7d"])) :=
      (body.balanced_steps hb).enclose rfl rfl
    have hall := hblock.append (next.balanced_steps hn)
    simpa [Code.steps] using hall
  | .choose (.otherwise _) _, ⟨⟨hf, _⟩, _⟩ => by cases hf
  | .choose (.arm test body rest) next, ⟨⟨_, hb, hr⟩, hn⟩ => by
    have hopening : (Step.opening ("if (" ++ w.test test ++ ") \x7b")).goesIn = true := rfl
    have harms := rest.balanced_steps hr hopening (body.balanced_steps hb)
    have hall := harms.append (next.balanced_steps hn)
    simpa [Code.steps, Arms.steps] using hall

/-- Arms that follow another one close what that one has opened. -/
theorem Arms.balanced_steps : (arms : Arms I H T) → arms.AllMarks G P false →
    ∀ {s : Step} {steps : List Step}, s.goesIn = true → Balanced steps →
      Balanced (s :: (steps ++ arms.steps w false))
  | .otherwise body, ⟨_, hb⟩, s, steps, hs, hsteps => by
    have hbefore : Balanced (s :: (steps ++ [.dedent])) := hsteps.enclose hs rfl
    have hlast : Balanced (.opening "\x7d else \x7b" :: (body.steps w ++ [.closing "\x7d"])) :=
      (body.balanced_steps hb).enclose rfl rfl
    have hall := hbefore.append hlast
    simpa [Arms.steps] using hall
  | .arm test body rest, ⟨_, hb, hr⟩, s, steps, hs, hsteps => by
    have hbefore : Balanced (s :: (steps ++ [.dedent])) := hsteps.enclose hs rfl
    have hopening : (Step.opening ("\x7d else if (" ++ w.test test ++ ") \x7b")).goesIn = true :=
      rfl
    have hall := hbefore.append (rest.balanced_steps hr hopening (body.balanced_steps hb))
    simpa [Arms.steps] using hall

end

end Code

/-- A function is balanced if its body is. -/
theorem balanced_function {signature result : String} {body : List Step} (h : Balanced body) :
    Balanced (function signature result body) := by
  have hbody : Balanced (.opening result :: (body ++ [.closing "\x7d"])) := h.enclose rfl rfl
  have hall : Balanced ([.line signature] ++ .opening result :: (body ++ [.closing "\x7d"])) :=
    (balanced_singleton rfl).append hbody
  simpa [function] using hall

/-! ## Parts of a command -/

section Command

variable (c : Command)

theorem balanced_record : Balanced (record c) := by
  unfold record
  split_ifs
  · exact balanced_singleton rfl
  · exact (balanced_map (fun _ => rfl) c.fields).enclose rfl rfl

theorem balanced_commandCode :
    Balanced ((ArgvCode.commandCode c).steps ArgvCode.writing) :=
  Code.balanced_steps _ (ArgvCode.allMarks_commandCode c)

theorem balanced_supply (f : Field) :
    Balanced ((OptionsCode.supply f .done).steps OptionsCode.writing) := by
  have hmarks : (OptionsCode.supply f .done).AllMarks OptionsCode.grammar fun _ => True := by
    unfold OptionsCode.supply
    split_ifs
    · exact ⟨trivial, ⟨trivial, trivial, trivial, ⟨trivial, trivial⟩, trivial⟩, trivial⟩
    · exact ⟨trivial, ⟨trivial, trivial, trivial, ⟨trivial, trivial⟩, trivial⟩, trivial⟩
    · exact ⟨trivial, trivial⟩
    · exact ⟨trivial, trivial⟩
  exact Code.balanced_steps _ hmarks

/-- A field adds its own steps before those of the fields after it. -/
theorem OptionsCode.steps_supply (f : Field) (next : OptionsCode.Body) :
    (OptionsCode.supply f next).steps OptionsCode.writing =
      (OptionsCode.supply f .done).steps OptionsCode.writing ++
        next.steps OptionsCode.writing := by
  unfold OptionsCode.supply
  split_ifs <;> simp [Code.steps]

theorem balanced_scriptFunction : Balanced (scriptFunction c) := by
  have hanswer : Balanced ((Code.run .answer .done : OptionsCode.Body).steps
      OptionsCode.writing) := balanced_singleton rfl
  have hfields : Balanced ((c.fields.foldr OptionsCode.supply (.run .answer .done)).steps
      OptionsCode.writing) := by
    induction c.fields with
    | nil => exact hanswer
    | cons f fields ih =>
      rw [List.foldr_cons, OptionsCode.steps_supply]
      exact (balanced_supply f).append ih
  have hoptions : Balanced ((OptionsCode.supplyAll c (.run .answer .done)).steps
      OptionsCode.writing) := by
    unfold OptionsCode.supplyAll
    split_ifs
    · exact hanswer
    · exact (balanced_singleton rfl).append hfields
  rw [OptionsCode.scriptFunction_eq]
  exact balanced_function ((balanced_singleton rfl).append hoptions)

theorem balanced_optionsInterface : Balanced (optionsInterface c) :=
  (balanced_map (fun _ => rfl) c.fields).enclose rfl rfl

theorem commandBalance : CommandBalance c where
  record := balanced_record c
  commandCode := balanced_commandCode c
  scriptFunction := balanced_scriptFunction c
  optionsInterface := balanced_optionsInterface c

end Command

/-! ## Files -/

section Files

variable (s : Schema) (config : Config)

theorem balanced_alternatives (names : List String) : Balanced (alternatives names) := by
  induction names with
  | nil => exact balanced_nil
  | cons name names ih =>
    cases names with
    | nil => exact balanced_singleton rfl
    | cons next names => exact (balanced_singleton rfl).append ih

theorem balanced_union : Balanced (union s) :=
  (balanced_alternatives _).enclose rfl rfl

theorem balanced_inclusions (headers : List String) : Balanced (headers.map inclusion) :=
  balanced_map (fun _ => rfl) headers

theorem Balanced.guarded {body : List Step} (h : Balanced body) (guard : String) :
    Balanced (guarded guard body) :=
  ((balanced_of_isFlat rfl).append h).append (balanced_singleton rfl)

theorem balanced_header : Balanced (header s config) := by
  have hrecords : Balanced (s.commands.flatMap fun c => record c ++ [.blank]) :=
    balanced_flatMap fun c _ => (balanced_record c).append (balanced_singleton rfl)
  have hinclusions := balanced_inclusions (headerInclusions ++ config.includes)
  have hunion := balanced_union s
  refine Balanced.guarded ?_ config.parserGuard
  exact (((((((balanced_of_isFlat rfl).append hinclusions).append
    (balanced_of_isFlat rfl)).append hrecords).append hunion).append
      (balanced_singleton rfl)).append (balanced_of_isFlat rfl)).append (balanced_of_isFlat rfl)

theorem balanced_runHeader : Balanced (runHeader s config) := by
  have hstart : Balanced ([inclusion config.files.header, inclusion "result.h",
      inclusion "response.h", .blank, namespaceStart config.nameSpace, .blank] ++ handlerComment) :=
    balanced_of_isFlat rfl
  refine Balanced.guarded ?_ config.runGuard
  exact (hstart.append (balanced_map (fun _ => rfl) s.commands)).append (balanced_of_isFlat rfl)

theorem balanced_bridge : Balanced (bridge s config) := by
  have hfunctions : Balanced (s.commands.flatMap fun c => scriptFunction c ++ [.blank]) :=
    balanced_flatMap fun c _ => (balanced_scriptFunction c).append (balanced_singleton rfl)
  have hregistrations : Balanced (registrations s) := by
    have hbody : Balanced (s.commands.map registration ++ [.line "return exports;"]) :=
      (balanced_map (fun _ => rfl) s.commands).append (balanced_singleton rfl)
    have hall : Balanced (function "auto init (Napi::Env env, Napi::Object exports)"
        " -> Napi::Object \x7b" (s.commands.map registration ++ [.line "return exports;"])) :=
      balanced_function hbody
    simpa [function, registrations] using hall
  have hinclusions := balanced_inclusions (bridgeInclusions config.files)
  exact ((((((((balanced_of_isFlat rfl).append hinclusions).append
    (balanced_of_isFlat rfl)).append (balanced_of_isFlat rfl)).append
      (balanced_singleton rfl)).append hfunctions).append
        (balanced_of_isFlat rfl)).append hregistrations).append (balanced_of_isFlat rfl)

theorem balanced_declarations : Balanced (declarations s config) := by
  have hinterfaces : Balanced ((s.commands.filter fun c => !c.fields.isEmpty).flatMap
      fun c => optionsInterface c ++ [.blank]) :=
    balanced_flatMap fun c _ => (balanced_optionsInterface c).append (balanced_singleton rfl)
  exact ((((balanced_of_isFlat rfl).append (balanced_of_isFlat rfl)).append
    (balanced_singleton rfl)).append hinterfaces).append (balanced_map (fun _ => rfl) s.commands)

variable {s}

theorem balanced_argvParser (h : s.commands ≠ []) : Balanced (argvParser s) := by
  have harms : (Arms.ofList (s.commands.map fun c =>
      (ArgvCode.Test.command c.name, ArgvCode.commandCode c)) (.run .reject .done)).AllMarks
      ArgvCode.grammar (fun _ => True) true := by
    refine Arms.allMarks_ofList (fun _ => by simpa using h) (fun a ha => ?_) ⟨trivial, trivial⟩
    obtain ⟨c, -, rfl⟩ := List.mem_map.1 ha
    exact ⟨trivial, trivial, (ArgvCode.allMarks_commandCode c).imp fun _ _ => trivial⟩
  have hcode : (ArgvCode.ofSchema s).AllMarks ArgvCode.grammar fun _ => True :=
    ⟨trivial, ⟨trivial, trivial⟩, trivial, harms, trivial⟩
  rw [ArgvCode.argvParser_eq]
  exact balanced_function (Code.balanced_steps _ hcode)

/-- Without a command, the parser closes an arm that nothing has opened. -/
theorem not_balanced_source (h : s.commands = []) : ¬ Balanced (source s config) := by
  obtain ⟨commands⟩ := s
  subst h
  intro hb
  have hin : (source ⟨[]⟩ config).countP Step.goesIn = 4 := rfl
  have hout : (source ⟨[]⟩ config).countP Step.goesOut = 5 := rfl
  have hmatched := hb.matched
  omega

theorem balanced_source_iff : Balanced (source s config) ↔ s.commands ≠ [] := by
  constructor
  · exact fun hb h => not_balanced_source config h hb
  · intro h
    have hbody : Balanced [.line "auto argv = split(str, ' ');", .line "return parse(argv);"] :=
      balanced_of_isFlat rfl
    have hline : Balanced lineParser := balanced_function hbody
    exact ((((balanced_of_isFlat rfl).append hline).append (balanced_singleton rfl)).append
      (balanced_argvParser h)).append (balanced_of_isFlat rfl)

end Files

/-- The steps of every file go in and out in pairs and never out of the outermost level, whatever
the schema and the configuration; of the source of the parsers this holds exactly if there is a
command. So do the parts that a command adds to them, and what a field adds to the function of a
script. -/
theorem balanced_files (s : Schema) (config : Config) :
    FileBalance s config ∧ (∀ c : Command, CommandBalance c) ∧
      ∀ f : Field, Balanced ((OptionsCode.supply f .done).steps OptionsCode.writing) := by
  refine ⟨?_, commandBalance, balanced_supply⟩
  exact {
    header := balanced_header s config
    runHeader := balanced_runHeader s config
    source := balanced_source_iff config
    bridge := balanced_bridge s config
    declarations := balanced_declarations s config }

end CommandSchema.Generated
