import CommandSchema.Proofs.Except
import CommandSchema.Proofs.Invocation.Argv

/-!
# Vectors that are rejected

The flags of a vector stand at its odd positions, each in front of its token. For which cause a
vector is rejected is said here by positions alone; of several causes, the earliest one counts.

* `Command.KnowsFlags`, `Command.FirstUnknown`: every flag is one of the command's, or this is the
  first that is not.
* `argPairs`: the pairs of a flag and a token that arguments make.
* `Command.unsupplied`: the names of the fields that have to be supplied and are not.
* `Command.Rejects`, `Schema.Rejects`: the causes of each error.
* `Schema.parseArgv_rejects`: a vector is rejected exactly with the error of its cause.
-/

namespace CommandSchema

/-- The pairs of a flag and a token that arguments make. A flag that is the last argument makes
none. -/
def argPairs : List String → List (String × String)
  | flag :: token :: args => (flag, token) :: argPairs args
  | _ => []

theorem argPairs_pairArgs (pairs : List (String × String)) : argPairs (pairArgs pairs) = pairs := by
  induction pairs with
  | nil => rfl
  | cons p pairs ih => exact congrArg (p :: ·) ih

namespace Command

instance (c : Command) (pairs : List (String × String)) (name : String) :
    Decidable (c.Supplies pairs name) :=
  decidable_of_iff _ supplies_iff.symm

/-- Every argument at an odd position is a flag of the command. -/
def KnowsFlags (c : Command) (argv : List String) : Prop :=
  ∀ (k : Nat) (flag : String), argv[2 * k + 1]? = some flag → flag ∈ c.flags

/-- Of the arguments at odd positions, the first that is no flag of the command. -/
def FirstUnknown (c : Command) (argv : List String) (flag : String) : Prop :=
  ∃ k : Nat, argv[2 * k + 1]? = some flag ∧ flag ∉ c.flags ∧
    ∀ j < k, ∀ earlier, argv[2 * j + 1]? = some earlier → earlier ∈ c.flags

/-- The names of the fields that have to be supplied and that no pair supplies, in the order of the
fields. -/
def unsupplied (c : Command) (pairs : List (String × String)) : List String :=
  (c.requiredFields.filter fun f => ¬ c.Supplies pairs f.name).map (·.name)

/-- Why a command with fields rejects a vector that starts with its name. -/
inductive Rejects (c : Command) (argv : List String) : ArgvError → Prop where
  | unknownFlag {flag : String} (first : c.FirstUnknown argv flag) :
    Rejects c argv (.unknownFlag c.name flag)
  | missingValue {flag : String} (known : c.KnowsFlags argv) (even : argv.length % 2 = 0)
    (last : argv.getLast? = some flag) : Rejects c argv (.missingValue c.name flag)
  | missingFields {f : Field} (known : c.KnowsFlags argv) (odd : argv.length % 2 = 1)
    (required : f ∈ c.requiredFields) (missing : ¬ c.Supplies (argPairs argv.tail) f.name) :
    Rejects c argv (.missingFields c.name (c.unsupplied (argPairs argv.tail)))

end Command

/-- Why a schema rejects a vector. A command without fields rejects none. -/
inductive Schema.Rejects (s : Schema) : List String → ArgvError → Prop where
  | empty : Rejects s [] .empty
  | unknownCommand {name : String} {args : List String}
    (unknown : ∀ c ∈ s.commands, c.name ≠ name) : Rejects s (name :: args) (.unknownCommand name)
  | command {name : String} {args : List String} {c : Command} {e : ArgvError}
    (selected : s.command? name = some c) (fields : c.fields ≠ [])
    (rejects : c.Rejects (name :: args) e) : Rejects s (name :: args) e

namespace Command

variable {c : Command}

/-! ## Flags by their positions

A pair in front of a vector moves every flag by two positions, and the token of that pair takes the
place of the name. -/

theorem knowsFlags_singleton (name : String) : c.KnowsFlags [name] := by
  intro k flag h
  simp at h

theorem knowsFlags_cons_cons {name flag : String} {argv : List String} :
    c.KnowsFlags (name :: flag :: argv) ↔ flag ∈ c.flags ∧ c.KnowsFlags argv := by
  constructor
  · intro h
    exact ⟨h 0 flag rfl, fun k g hg => h (k + 1) g hg⟩
  · rintro ⟨hflag, hargv⟩ k g hg
    cases k with
    | zero =>
      obtain rfl : flag = g := by simpa using hg
      exact hflag
    | succ k => exact hargv k g hg

theorem not_firstUnknown_singleton {name flag : String} : ¬ c.FirstUnknown [name] flag := by
  rintro ⟨k, hk, -⟩
  simp at hk

theorem firstUnknown_cons_cons {name flag unknown : String} {argv : List String} :
    c.FirstUnknown (name :: flag :: argv) unknown ↔
      (flag ∉ c.flags ∧ unknown = flag) ∨ (flag ∈ c.flags ∧ c.FirstUnknown argv unknown) := by
  constructor
  · rintro ⟨k, hk, hunknown, hfirst⟩
    cases k with
    | zero =>
      obtain rfl : flag = unknown := by simpa using hk
      exact .inl ⟨hunknown, rfl⟩
    | succ k =>
      have hflag : flag ∈ c.flags := hfirst 0 (by omega) flag rfl
      refine .inr ⟨hflag, k, hk, hunknown, fun j hj g hg => ?_⟩
      exact hfirst (j + 1) (by omega) g hg
  · rintro (⟨hflag, rfl⟩ | ⟨hflag, k, hk, hunknown, hfirst⟩)
    · exact ⟨0, rfl, hflag, fun j hj => by omega⟩
    · refine ⟨k + 1, hk, hunknown, fun j hj g hg => ?_⟩
      cases j with
      | zero =>
        obtain rfl : flag = g := by simpa using hg
        exact hflag
      | succ j => exact hfirst j (by omega) g hg

theorem FirstUnknown.not_knowsFlags {argv : List String} {flag : String}
    (h : c.FirstUnknown argv flag) : ¬ c.KnowsFlags argv := by
  obtain ⟨k, hk, hunknown, -⟩ := h
  exact fun hknown => hunknown (hknown k flag hk)

/-! ## Reading pairs -/

theorem fieldByFlag?_eq_none {flag : String} : c.fieldByFlag? flag = none ↔ flag ∉ c.flags := by
  rw [← isSome_fieldByFlag?, Option.not_isSome_iff_eq_none]

/-- Pairs are read exactly if all flags are known and each has a token. -/
theorem readPairs_eq_ok_iff {args : List String} {ps : List (Field × String)} (name : String) :
    c.readPairs args = .ok ps ↔
      c.KnowsFlags (name :: args) ∧ args.length % 2 = 0 ∧
        ps = (argPairs args).filterMap c.select? := by
  fun_induction readPairs c args generalizing name ps with
  | case1 => simp [knowsFlags_singleton, argPairs, eq_comm]
  | case2 flag hflag => simp
  | case3 flag f hflag => simp
  | case4 flag token args hflag =>
    have hunknown := fieldByFlag?_eq_none.1 hflag
    simp [knowsFlags_cons_cons, hunknown]
  | case5 flag token args f hflag ih =>
    have hknown : flag ∈ c.flags := isSome_fieldByFlag?.1 (by simp [hflag])
    have hselect : c.select? (flag, token) = some (f, token) := by simp [select?, hflag]
    have hlength : (flag :: token :: args).length % 2 = 0 ↔ args.length % 2 = 0 := by
      simp only [List.length_cons]
      omega
    rw [knowsFlags_cons_cons, hlength, argPairs, List.filterMap_cons_some hselect]
    rw [map_eq_ok_iff]
    constructor
    · rintro ⟨rest, hrest, rfl⟩
      obtain ⟨hargs, heven, rfl⟩ := (ih token).1 hrest
      exact ⟨⟨hknown, hargs⟩, heven, rfl⟩
    · rintro ⟨⟨-, hargs⟩, heven, rfl⟩
      exact ⟨_, (ih token).2 ⟨hargs, heven, rfl⟩, rfl⟩

/-- Pairs are not read for the first flag that is unknown or, where all are known, for a last one
that has no token. -/
theorem readPairs_eq_error_iff {args : List String} {e : ArgvError} (name : String) :
    c.readPairs args = .error e ↔
      (∃ flag, c.FirstUnknown (name :: args) flag ∧ e = .unknownFlag c.name flag) ∨
        (c.KnowsFlags (name :: args) ∧ args.length % 2 = 1 ∧
          ∃ flag, (name :: args).getLast? = some flag ∧ e = .missingValue c.name flag) := by
  fun_induction readPairs c args generalizing name with
  | case1 => simp [not_firstUnknown_singleton]
  | case2 flag hflag =>
    have hunknown := fieldByFlag?_eq_none.1 hflag
    simp [firstUnknown_cons_cons, knowsFlags_cons_cons, hunknown, eq_comm]
  | case3 flag f hflag =>
    have hknown : flag ∈ c.flags := isSome_fieldByFlag?.1 (by simp [hflag])
    have hrest : c.KnowsFlags [] := fun k g hg => by simp at hg
    have hnone : ∀ g, ¬ c.FirstUnknown [] g := fun g h => h.not_knowsFlags hrest
    simp [firstUnknown_cons_cons, knowsFlags_cons_cons, hknown, hrest, hnone, eq_comm]
  | case4 flag token args hflag =>
    have hunknown := fieldByFlag?_eq_none.1 hflag
    simp [firstUnknown_cons_cons, knowsFlags_cons_cons, hunknown, eq_comm]
  | case5 flag token args f hflag ih =>
    have hknown : flag ∈ c.flags := isSome_fieldByFlag?.1 (by simp [hflag])
    have hlength : (flag :: token :: args).length % 2 = 1 ↔ args.length % 2 = 1 := by
      simp only [List.length_cons]
      omega
    rw [map_eq_error_iff, ih token, knowsFlags_cons_cons, hlength]
    simp only [firstUnknown_cons_cons, hknown, not_true, false_and, true_and, false_or,
      List.getLast?_cons_cons]

/-! ## One command -/

theorem missingFields_eq (pairs : List (String × String)) :
    c.missingFields ((pairs.filterMap c.select?).map (·.1)) =
      c.requiredFields.filter fun f => ¬ c.Supplies pairs f.name := by
  refine List.filter_congr fun f _ => ?_
  rw [Bool.eq_iff_iff, decide_eq_true_iff, ← any_name_selected, Bool.not_eq_true',
    Bool.not_eq_true]

/-- A command with fields rejects arguments exactly for its causes; one without fields takes all. -/
theorem readRecord_eq_error_iff {args : List String} {e : ArgvError} (name : String) :
    c.readRecord args = .error e ↔ c.fields ≠ [] ∧ c.Rejects (name :: args) e := by
  by_cases hc : c.fields = []
  · simp [readRecord_of_fields_eq_nil hc, hc]
  have he : c.fields.isEmpty = false := by simpa using hc
  rw [readRecord, he, if_neg (by decide), and_iff_right hc]
  constructor
  · intro h
    cases hp : c.readPairs args with
    | error e' =>
      obtain rfl : e' = e := by simpa [hp] using h
      rcases (readPairs_eq_error_iff name).1 hp with
        ⟨flag, hfirst, rfl⟩ | ⟨hknown, hodd, flag, hlast, rfl⟩
      · exact .unknownFlag hfirst
      · refine .missingValue hknown ?_ hlast
        rw [List.length_cons]
        omega
    | ok ps =>
      obtain ⟨hknown, heven, rfl⟩ := (readPairs_eq_ok_iff name).1 hp
      simp only [hp, missingFields_eq] at h
      split at h
      · cases h
      · next hne =>
        cases h
        obtain ⟨f, hf⟩ := List.exists_mem_of_ne_nil _ hne
        obtain ⟨hrequired, hmissing⟩ := List.mem_filter.1 hf
        refine .missingFields hknown ?_ hrequired (by simpa using hmissing)
        rw [List.length_cons]
        omega
  · intro h
    cases h with
    | unknownFlag first =>
      rw [(readPairs_eq_error_iff name).2 (.inl ⟨_, first, rfl⟩)]
    | missingValue known even last =>
      have hodd : args.length % 2 = 1 := by
        rw [List.length_cons] at even
        omega
      rw [(readPairs_eq_error_iff name).2 (.inr ⟨known, hodd, _, last, rfl⟩)]
    | @missingFields f known odd required missing =>
      have heven : args.length % 2 = 0 := by
        rw [List.length_cons] at odd
        omega
      have hf : f ∈ c.requiredFields.filter fun f => ¬ c.Supplies (argPairs args) f.name :=
        List.mem_filter.2 ⟨required, by simpa using missing⟩
      rw [(readPairs_eq_ok_iff name).2 ⟨known, heven, rfl⟩]
      simp only [missingFields_eq]
      split
      · next hnil =>
        rw [hnil] at hf
        cases hf
      · rfl

end Command

/-! ## Schemas -/

namespace Schema

variable {s : Schema}

theorem command?_eq_none_iff {name : String} :
    s.command? name = none ↔ ∀ c ∈ s.commands, c.name ≠ name := by
  simp [command?]

theorem rejects_nil {e : ArgvError} : s.Rejects [] e ↔ e = .empty := by
  constructor
  · rintro ⟨⟩
    rfl
  · rintro rfl
    exact .empty

theorem rejects_of_unknown {name : String} {args : List String} {e : ArgvError}
    (h : s.command? name = none) : s.Rejects (name :: args) e ↔ e = .unknownCommand name := by
  constructor
  · intro hr
    cases hr with
    | unknownCommand => rfl
    | command selected => simp [h] at selected
  · rintro rfl
    exact .unknownCommand (command?_eq_none_iff.1 h)

theorem rejects_of_selected {name : String} {args : List String} {c : Command} {e : ArgvError}
    (h : s.command? name = some c) :
    s.Rejects (name :: args) e ↔ c.fields ≠ [] ∧ c.Rejects (name :: args) e := by
  constructor
  · intro hr
    cases hr with
    | unknownCommand unknown => simp [command?_eq_none_iff.2 unknown] at h
    | command selected fields rejects =>
      obtain rfl := Option.some.inj (h.symm.trans selected)
      exact ⟨fields, rejects⟩
  · rintro ⟨hfields, hr⟩
    exact .command h hfields hr

/-- A vector is rejected exactly with the error of its cause: it is empty; it names no command; the
first argument in the place of a flag that the command does not know; the last argument, where all
flags are known and that one has no token; the fields that have to be supplied and are not, where
all flags have tokens. A command without fields takes whatever follows its name. -/
theorem parseArgv_rejects (s : Schema) (argv : List String) :
    (∀ e, s.parseArgv argv = .error e ↔ s.Rejects argv e) ∧
      ∀ name args c, argv = name :: args → s.command? name = some c → c.fields = [] →
        s.parseArgv argv = .ok { command := c.name, record := c.initialRecord } := by
  constructor
  · intro e
    cases argv with
    | nil => simp [parseArgv, rejects_nil, eq_comm]
    | cons name args =>
      cases hc : s.command? name with
      | none => simp [parseArgv, hc, rejects_of_unknown hc, eq_comm]
      | some c =>
        simp only [parseArgv, hc, map_eq_error_iff, rejects_of_selected hc]
        exact Command.readRecord_eq_error_iff name
  · rintro name args c rfl hc hfields
    simp [parseArgv, hc, Command.readRecord_of_fields_eq_nil hfields, Except.map]

end Schema

end CommandSchema
