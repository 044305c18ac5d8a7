import CommandSchema.Invocation.Argv
import CommandSchema.Proofs.Except
import CommandSchema.Proofs.Record

/-!
# What an argument vector supplies

After the name of a command, the arguments are pairs of a flag and a token. Which vectors a schema
accepts, and what the record holds then, is said here in terms of these pairs alone.

* `pairArgs`: the arguments that pairs make.
* `Command.Supplies`, `Command.LastSupplies`: some pair selects a field of a name; the last one
  that does.
* `Command.Takes`: the arguments that a command takes.
* `Schema.parseArgv_ok`: the vectors that are accepted, and the record of each.
-/

namespace CommandSchema

/-- The arguments that pairs of a flag and a token make. -/
def pairArgs (pairs : List (String × String)) : List String := pairs.flatMap fun p => [p.1, p.2]

namespace Command

/-- The flags of the fields. -/
def flags (c : Command) : List String := c.fields.map (·.flag)

/-- Some pair selects a field of a name. A pair selects the first field with its flag. -/
def Supplies (c : Command) (pairs : List (String × String)) (name : String) : Prop :=
  ∃ p ∈ pairs, ∃ f, c.fieldByFlag? p.1 = some f ∧ f.name = name

/-- Of the pairs that select a field of a name, the last one selects `f` and has the token. -/
def LastSupplies (c : Command) (pairs : List (String × String)) (name : String) (f : Field)
    (token : String) : Prop :=
  ∃ before flag after, pairs = before ++ (flag, token) :: after ∧
    c.fieldByFlag? flag = some f ∧ f.name = name ∧ ¬ c.Supplies after name

/-- The command takes the arguments: it has no fields, or they are pairs, every flag is one of its
own, and every field that has to be supplied shares its name with a field that is. -/
def Takes (c : Command) (args : List String) : Prop :=
  c.fields = [] ∨ ∃ pairs, args = pairArgs pairs ∧ (∀ p ∈ pairs, p.1 ∈ c.flags) ∧
    ∀ f ∈ c.requiredFields, c.Supplies pairs f.name

/-! ## Pairs that have been read -/

/-- The field that a pair selects, with its token. -/
def select? (c : Command) (p : String × String) : Option (Field × String) :=
  (c.fieldByFlag? p.1).map fun f => (f, p.2)

theorem isSome_fieldByFlag? {c : Command} {flag : String} :
    (c.fieldByFlag? flag).isSome ↔ flag ∈ c.flags := by
  simp [fieldByFlag?, flags]

/-- Every vector that is read consists of pairs with flags of the command. -/
theorem exists_pairs_of_readPairs {c : Command} {args : List String} {ps : List (Field × String)}
    (h : c.readPairs args = .ok ps) :
    ∃ pairs, args = pairArgs pairs ∧ (∀ p ∈ pairs, p.1 ∈ c.flags) ∧
      ps = pairs.filterMap c.select? := by
  fun_induction readPairs c args generalizing ps with
  | case1 => exact ⟨[], rfl, by simp, by simpa using h.symm⟩
  | case2 flag hflag => simp at h
  | case3 flag f hflag => simp at h
  | case4 flag token args hflag => simp at h
  | case5 flag token args f hflag ih =>
    obtain ⟨rest, hrest, rfl⟩ := map_eq_ok_iff.1 h
    obtain ⟨pairs, rfl, hpairs, rfl⟩ := ih hrest
    refine ⟨(flag, token) :: pairs, rfl, ?_, by simp [select?, hflag]⟩
    rintro p (_ | ⟨_, hp⟩)
    · exact isSome_fieldByFlag?.1 (by simp [hflag])
    · exact hpairs p hp

/-- Pairs with flags of the command are read. -/
theorem readPairs_pairArgs {c : Command} {pairs : List (String × String)}
    (h : ∀ p ∈ pairs, p.1 ∈ c.flags) :
    c.readPairs (pairArgs pairs) = .ok (pairs.filterMap c.select?) := by
  induction pairs with
  | nil => simp [pairArgs, readPairs]
  | cons p pairs ih =>
    obtain ⟨flag, token⟩ := p
    obtain ⟨f, hf⟩ := Option.isSome_iff_exists.1 (isSome_fieldByFlag?.2 (h _ List.mem_cons_self))
    have ih := ih fun p hp => h p (List.mem_cons_of_mem _ hp)
    show c.readPairs (flag :: token :: pairArgs pairs) = _
    simp only [readPairs, hf]
    rw [ih]
    simp [Except.map, select?, hf]

/-! ## The record of the pairs -/

/-- The values of the fields that pairs select, under the names of the fields. -/
def pairValues (c : Command) (pairs : List (String × String)) : List (String × Value) :=
  (pairs.filterMap c.select?).map fun p => (p.1.name, p.1.ofToken p.2)

theorem pairValues_append (c : Command) (ps qs : List (String × String)) :
    c.pairValues (ps ++ qs) = c.pairValues ps ++ c.pairValues qs := by
  simp [pairValues]

theorem supplies_iff {c : Command} {pairs : List (String × String)} {name : String} :
    c.Supplies pairs name ↔ name ∈ (c.pairValues pairs).map (·.1) := by
  simp only [Supplies, pairValues, List.map_map, List.mem_map, List.mem_filterMap, select?,
    Option.map_eq_some_iff, Function.comp]
  constructor
  · rintro ⟨p, hp, f, hf, rfl⟩
    exact ⟨(f, p.2), ⟨p, hp, f, hf, rfl⟩, rfl⟩
  · rintro ⟨_, ⟨p, hp, f, hf, rfl⟩, rfl⟩
    exact ⟨p, hp, f, hf, rfl⟩

theorem lookup_pairValues_eq_none_iff {c : Command} {pairs : List (String × String)}
    {name : String} :
    (c.pairValues pairs).reverse.lookup name = none ↔ ¬ c.Supplies pairs name := by
  rw [supplies_iff, List.lookup_eq_none_iff]
  simp only [List.mem_reverse, List.mem_map, ne_eq, not_exists, not_and, bne,
    Bool.not_eq_true', beq_eq_false_iff_ne]
  exact forall₂_congr fun p _ => not_congr eq_comm

theorem lookup_pairValues_of_last {c : Command} {pairs : List (String × String)}
    {name token : String} {f : Field} (h : c.LastSupplies pairs name f token) :
    (c.pairValues pairs).reverse.lookup name = some (f.ofToken token) := by
  obtain ⟨before, flag, after, rfl, hf, rfl, hafter⟩ := h
  have hone : c.pairValues [(flag, token)] = [(f.name, f.ofToken token)] := by
    simp [pairValues, select?, hf]
  rw [← List.singleton_append, pairValues_append, pairValues_append, hone, List.reverse_append,
    List.reverse_append, List.append_assoc, List.lookup_append,
    lookup_pairValues_eq_none_iff.2 hafter]
  simp

/-- A field that a pair selects is a member of the record. -/
theorem mem_names_of_supplies {c : Command} {pairs : List (String × String)} {name : String}
    (h : c.Supplies pairs name) : name ∈ c.initialRecord.names := by
  obtain ⟨p, -, f, hf, rfl⟩ := h
  exact mem_names_initialRecord.2 (List.mem_map_of_mem (List.mem_of_find?_eq_some hf))

/-- The slots after pairs: the token of the last one that supplies a member, else what the command
starts with. -/
theorem get?_setAll_pairValues (c : Command) (pairs : List (String × String)) (name : String) :
    (∀ f token, c.LastSupplies pairs name f token →
      (c.initialRecord.setAll (c.pairValues pairs)).get? name = some (.set (f.ofToken token))) ∧
    (¬ c.Supplies pairs name →
      (c.initialRecord.setAll (c.pairValues pairs)).get? name = c.initialRecord.get? name) := by
  constructor
  · intro f token h
    have hs : c.Supplies pairs name := by
      obtain ⟨before, flag, after, rfl, hf, hn, -⟩ := h
      exact ⟨(flag, token), by simp, f, hf, hn⟩
    obtain ⟨slot, hslot⟩ :=
      Option.isSome_iff_exists.1 (Record.isSome_get?.2 (mem_names_of_supplies hs))
    rw [Record.get?_setAll, lookup_pairValues_of_last h, hslot]
    rfl
  · intro h
    rw [Record.get?_setAll, lookup_pairValues_eq_none_iff.2 h]
    exact Option.map_id'

/-! ## One command -/

/-- A name is among those of the fields that pairs select if they supply it. -/
theorem any_name_selected {c : Command} {pairs : List (String × String)} {name : String} :
    ((pairs.filterMap c.select?).map (·.1)).any (·.name == name) = true ↔
      c.Supplies pairs name := by
  rw [supplies_iff, pairValues, List.map_map]
  simp only [List.any_eq_true, List.mem_map, beq_iff_eq, Function.comp]
  constructor
  · rintro ⟨_, ⟨p, hp, rfl⟩, hn⟩
    exact ⟨p, hp, hn⟩
  · rintro ⟨p, hp, hn⟩
    exact ⟨p.1, ⟨p, hp, rfl⟩, hn⟩

theorem missingFields_eq_nil_iff {c : Command} {pairs : List (String × String)} :
    c.missingFields ((pairs.filterMap c.select?).map (·.1)) = [] ↔
      ∀ f ∈ c.requiredFields, c.Supplies pairs f.name := by
  rw [missingFields, List.filter_eq_nil_iff]
  refine forall₂_congr fun f _ => ?_
  rw [← any_name_selected, Bool.not_eq_true', Bool.not_eq_false]

/-- The record that arguments supply to a command with fields. -/
theorem readRecord_eq_ok_iff {c : Command} (hc : c.fields ≠ []) {args : List String} {r : Record} :
    c.readRecord args = .ok r ↔
      ∃ pairs, args = pairArgs pairs ∧ (∀ p ∈ pairs, p.1 ∈ c.flags) ∧
        (∀ f ∈ c.requiredFields, c.Supplies pairs f.name) ∧
        r = c.initialRecord.setAll (c.pairValues pairs) := by
  have he : c.fields.isEmpty = false := by simpa using hc
  rw [readRecord, he, if_neg (by simp)]
  constructor
  · intro h
    cases hp : c.readPairs args with
    | error e => simp [hp] at h
    | ok ps =>
      obtain ⟨pairs, rfl, hflags, rfl⟩ := exists_pairs_of_readPairs hp
      cases hm : c.missingFields ((pairs.filterMap c.select?).map (·.1)) with
      | cons f missing => simp [hp, hm] at h
      | nil =>
        refine ⟨pairs, rfl, hflags, missingFields_eq_nil_iff.1 hm, ?_⟩
        simpa [hp, hm, eq_comm, pairValues] using h
  · rintro ⟨pairs, rfl, hflags, hreq, rfl⟩
    simp [readPairs_pairArgs hflags, missingFields_eq_nil_iff.2 hreq, pairValues]

theorem readRecord_of_fields_eq_nil {c : Command} (hc : c.fields = []) (args : List String) :
    c.readRecord args = .ok c.initialRecord := by
  simp [readRecord, hc]

theorem exists_readRecord_iff {c : Command} {args : List String} :
    (∃ r, c.readRecord args = .ok r) ↔ c.Takes args := by
  by_cases hc : c.fields = []
  · exact ⟨fun _ => .inl hc, fun _ => ⟨_, readRecord_of_fields_eq_nil hc args⟩⟩
  · simp only [readRecord_eq_ok_iff hc, Takes, hc, false_or]
    constructor
    · rintro ⟨_, pairs, hargs, hflags, hreq, -⟩
      exact ⟨pairs, hargs, hflags, hreq⟩
    · rintro ⟨pairs, hargs, hflags, hreq⟩
      exact ⟨_, pairs, hargs, hflags, hreq, rfl⟩

end Command

/-! ## Schemas -/

namespace Schema

theorem parseArgv_eq_ok_iff {s : Schema} {argv : List String} {i : Invocation} :
    s.parseArgv argv = .ok i ↔
      ∃ name args c, argv = name :: args ∧ s.command? name = some c ∧ i.command = c.name ∧
        c.readRecord args = .ok i.record := by
  cases argv with
  | nil => simp [parseArgv]
  | cons name args =>
    cases hc : s.command? name with
    | none => simp [parseArgv, hc]
    | some c =>
      obtain ⟨command, record⟩ := i
      cases hr : c.readRecord args with
      | error e => simp [parseArgv, hc, hr, Except.map]
      | ok r => simp [parseArgv, hc, hr, Except.map, eq_comm]

/-- A vector is accepted exactly if it starts with the name of a command that takes the rest. The
record has the members that the command starts with, and each holds the value of the last token
that is supplied to it, or else is as the command starts with it. -/
theorem parseArgv_ok (s : Schema) (argv : List String) :
    ((∃ i, s.parseArgv argv = .ok i) ↔
      ∃ name args c, argv = name :: args ∧ s.command? name = some c ∧ c.Takes args) ∧
    ∀ i, s.parseArgv argv = .ok i →
      ∃ name args c, argv = name :: args ∧ s.command? name = some c ∧ i.command = c.name ∧
        i.record.name = c.initialRecord.name ∧ i.record.names = c.initialRecord.names ∧
        (c.fields = [] → i.record = c.initialRecord) ∧
        (c.fields ≠ [] → ∃ pairs, args = pairArgs pairs ∧ ∀ n ∈ i.record.names,
          (∀ f token, c.LastSupplies pairs n f token →
            i.record.get? n = some (.set (f.ofToken token))) ∧
          (¬ c.Supplies pairs n → i.record.get? n = c.initialRecord.get? n)) := by
  constructor
  · simp only [parseArgv_eq_ok_iff, ← Command.exists_readRecord_iff]
    constructor
    · rintro ⟨i, name, args, c, hargv, hc, -, hr⟩
      exact ⟨name, args, c, hargv, hc, _, hr⟩
    · rintro ⟨name, args, c, hargv, hc, r, hr⟩
      exact ⟨⟨c.name, r⟩, name, args, c, hargv, hc, rfl, hr⟩
  · intro i hi
    obtain ⟨name, args, c, hargv, hc, hname, hr⟩ := parseArgv_eq_ok_iff.1 hi
    refine ⟨name, args, c, hargv, hc, hname, ?_⟩
    by_cases hf : c.fields = []
    · have hi : i.record = c.initialRecord := by
        simpa [Command.readRecord_of_fields_eq_nil hf, eq_comm] using hr
      exact ⟨by rw [hi], by rw [hi], fun _ => hi, fun h => absurd hf h⟩
    · obtain ⟨pairs, hargs, -, -, hrec⟩ := (Command.readRecord_eq_ok_iff hf).1 hr
      refine ⟨by simp [hrec], by simp [hrec], fun h => absurd h hf, fun _ => ⟨pairs, hargs, ?_⟩⟩
      intro n _
      rw [hrec]
      exact c.get?_setAll_pairValues pairs n

end Schema

end CommandSchema
