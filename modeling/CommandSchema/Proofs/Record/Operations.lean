import CommandSchema.Proofs.Record
import Mathlib.Data.Finset.Card

/-!
# Runs of operations on a record

Whatever is done with a new record, it stays a map that keeps the order in which its members were
declared first.

* `Record.Operation`, `Record.perform`, `Record.run`: what can be done with a record, one operation
  or many.
* `Record.LastGiven`: the slot that a run of operations has given to a name last.
* `Record.Holds`: a record is the map that a run of operations has made.
* `Record.Performs`: what one more operation answers and changes.
* `Record.Tracks.perform`, `Record.tracks_run`: what one operation keeps, and so every run.
* `Record.run_ordered`: every run leaves such a record, and every operation after it performs so.
-/

namespace CommandSchema.Record

/-! ## Statement -/

/-- What can be done with a record. -/
inductive Operation where
  | declare (name : String) (slot : Slot)
  | set (name : String) (value : Value)
  | get (name : String)
  | value (name : String)
  deriving DecidableEq, Repr

namespace Operation

/-- The name of the member that the operation is about. -/
def name : Operation → String
  | .declare n _ | .set n _ | .get n | .value n => n

/-- The name that the operation declares. -/
def declared? : Operation → Option String
  | .declare n _ => some n
  | .set _ _ | .get _ | .value _ => none

/-- The slot that the operation gives to the member of its name, if there is one. -/
def given? : Operation → Option Slot
  | .declare _ slot => some slot
  | .set _ v => some (.set v)
  | .get _ | .value _ => none

end Operation

/-- What an operation answers. -/
inductive Answer where
  | declared
  /-- The member has been found and set, or there is none. -/
  | isSet (found : Bool)
  | slot (slot? : Option Slot)
  | value (value? : Option Value)
  deriving DecidableEq, Repr

/-- The names that operations declare, in their order. -/
def declaredNames (ops : List Operation) : List String := ops.filterMap Operation.declared?

/-- The slot that operations have given to a name last: an operation declares the name with that
slot, or sets it after it has been declared, and none after it does either. -/
def LastGiven (ops : List Operation) (n : String) (slot : Slot) : Prop :=
  ∃ before op after, ops = before ++ op :: after ∧ op.name = n ∧ op.given? = some slot ∧
    n ∈ declaredNames (before ++ [op]) ∧ ∀ o ∈ after, o.name = n → o.given? = none

/-- The answer of an operation and the record after it. -/
def perform (r : Record) : Operation → Answer × Record
  | .declare n slot => (.declared, r.declare n slot)
  | .set n v =>
    match r.set? n v with
    | some next => (.isSet true, next)
    | none => (.isSet false, r)
  | .get n => (.slot (r.get? n), r)
  | .value n => (.value (r.value? n), r)

/-- The record after operations. -/
def run (r : Record) (ops : List Operation) : Record := ops.foldl (fun r op => (r.perform op).2) r

/-- The members of the record are the names that operations have declared, each once and in the
order of their first declarations, and each holds the slot that it has been given last. -/
structure Tracks (ops : List Operation) (r : Record) : Prop where
  names : r.names = (declaredNames ops).eraseDups
  nodup : r.names.Nodup
  get?_eq_some : ∀ n slot, r.get? n = some slot ↔ LastGiven ops n slot

/-- The record is the map that operations have made, also as seen by its size and by its JSON
object, which has the same members in the same order. -/
structure Holds (ops : List Operation) (r : Record) : Prop extends Tracks ops r where
  size : r.size = (declaredNames ops).toFinset.card
  get?_eq_none : ∀ n, r.get? n = none ↔ n ∉ declaredNames ops
  toJson : ∃ entries, r.toJson = .object entries ∧
    entries.map (·.1) = (declaredNames ops).eraseDups ∧ (entries.map (·.1)).Nodup ∧
    ∀ n, entries.lookup n = (r.get? n).map Slot.toJson

/-- The record `r`, which operations have made, performs one more operation with an answer and
becomes the record `next`. -/
structure Performs (ops : List Operation) (r : Record) (op : Operation) (answer : Answer)
    (next : Record) : Prop where
  declare : ∀ n slot, op = .declare n slot → answer = .declared ∧ next.get? n = some slot
  set : ∀ n v, op = .set n v → ∃ found, answer = .isSet found ∧
    (found = true ↔ n ∈ declaredNames ops) ∧ (found = true → next.get? n = some (.set v)) ∧
    (found = false → next = r)
  get : ∀ n, op = .get n → answer = .slot (r.get? n) ∧ next = r
  value : ∀ n, op = .value n → ∃ value?, answer = .value value? ∧
    (∀ v, value? = some v ↔ r.get? n = some (.set v)) ∧ next = r
  /-- An operation leaves the slots and the positions of all other members alone. -/
  other : ∀ n, n ≠ op.name →
    next.get? n = r.get? n ∧ next.names.idxOf? n = r.names.idxOf? n

/-! ## What operations have given -/

theorem eraseDups_concat (ns : List String) (n : String) :
    (ns ++ [n]).eraseDups = if n ∈ ns then ns.eraseDups else ns.eraseDups ++ [n] := by
  have hone : [n].eraseDups = [n] := rfl
  rw [List.eraseDups_append]
  split_ifs with h
  · simp [List.removeAll, h]
  · simpa [List.removeAll, h] using hone

section LastGiven

variable {ops : List Operation} {op : Operation}

theorem declaredNames_concat (ops : List Operation) (op : Operation) :
    declaredNames (ops ++ [op]) = declaredNames ops ++ op.declared?.toList := by
  rw [declaredNames, List.filterMap_append, ← declaredNames]
  cases hd : op.declared? with
  | none => simp [hd]
  | some n => simp [hd]

/-- One of the operations of a longer run is its last one or one of those before. -/
theorem concat_eq_append_cons {before after : List Operation} {o : Operation}
    (h : ops ++ [op] = before ++ o :: after) :
    (o = op ∧ before = ops ∧ after = []) ∨
      ∃ rest, ops = before ++ o :: rest ∧ after = rest ++ [op] := by
  rcases List.eq_nil_or_concat after with rfl | ⟨rest, last, rfl⟩
  · obtain ⟨rfl, ho⟩ := List.append_inj' h rfl
    exact .inl ⟨by simpa using ho.symm, rfl, rfl⟩
  · have hlast : ops ++ [op] = (before ++ o :: rest) ++ [last] := by simpa using h
    obtain ⟨hops, hl⟩ := List.append_inj' hlast rfl
    obtain rfl : op = last := by simpa using hl
    exact .inr ⟨rest, hops, List.concat_eq_append⟩

/-- An operation that gives a slot to a declared name is the last one so far. -/
theorem lastGiven_concat_self {given slot : Slot} (h : op.given? = some given) :
    LastGiven (ops ++ [op]) op.name slot ↔
      op.name ∈ declaredNames (ops ++ [op]) ∧ given = slot := by
  constructor
  · rintro ⟨before, o, after, hs, -, hgiven, hmem, hafter⟩
    obtain ⟨rfl, rfl, rfl⟩ | ⟨rest, rfl, rfl⟩ := concat_eq_append_cons hs
    · exact ⟨hmem, by simpa [h] using hgiven⟩
    · -- the operation comes after the one that is said to be the last
      have hnone := hafter op (by simp) rfl
      simp [h] at hnone
  · rintro ⟨hmem, rfl⟩
    exact ⟨ops, op, [], rfl, rfl, h, hmem, by simp⟩

/-- Any other operation leaves the last slot of a name as it was. -/
theorem lastGiven_concat_of_none {n : String} {slot : Slot} (h : op.name = n → op.given? = none) :
    LastGiven (ops ++ [op]) n slot ↔ LastGiven ops n slot := by
  constructor
  · rintro ⟨before, o, after, hs, hname, hgiven, hmem, hafter⟩
    obtain ⟨rfl, rfl, rfl⟩ | ⟨rest, rfl, rfl⟩ := concat_eq_append_cons hs
    · simp [h hname] at hgiven
    · exact ⟨before, o, rest, rfl, hname, hgiven, hmem, fun p hp => hafter p (by simp [hp])⟩
  · rintro ⟨before, o, after, rfl, hname, hgiven, hmem, hafter⟩
    refine ⟨before, o, after ++ [op], by simp, hname, hgiven, hmem, fun p hp => ?_⟩
    rcases List.mem_append.1 hp with hp | hp
    · exact hafter p hp
    · obtain rfl := List.mem_singleton.1 hp
      exact h

theorem not_lastGiven_nil (n : String) (slot : Slot) : ¬ LastGiven [] n slot := by
  rintro ⟨before, op, after, hs, -⟩
  simp at hs

end LastGiven

/-! ## One operation -/

/-- The record after an operation: only declaring and setting change it. -/
theorem perform_snd (r : Record) (op : Operation) :
    (r.perform op).2 = match op with
      | .declare n slot => r.declare n slot
      | .set n v => r.set n v
      | .get _ | .value _ => r := by
  cases op with
  | declare n slot | get n | value n => rfl
  | set n v =>
    show (r.perform (.set n v)).2 = (r.set? n v).getD r
    rw [perform]
    cases r.set? n v <;> rfl

theorem names_perform (r : Record) (op : Operation) :
    (r.perform op).2.names =
      match op.declared? with
      | some n => if n ∈ r.names then r.names else r.names ++ [n]
      | none => r.names := by
  rw [perform_snd]
  cases op with
  | declare n slot => exact names_declare r n slot
  | set n v => exact names_set r n v
  | get n | value n => rfl

theorem nodup_names_perform {r : Record} (h : r.names.Nodup) (op : Operation) :
    (r.perform op).2.names.Nodup := by
  rw [perform_snd]
  cases op with
  | declare n slot => exact nodup_names_declare h n slot
  | set n v => rwa [names_set]
  | get n | value n => exact h

/-- The slot of a member after an operation: the one that it gives, where it is about that member
and the member is there. -/
theorem get?_perform (r : Record) (op : Operation) (n : String) :
    (r.perform op).2.get? n =
      if op.name = n ∧ n ∈ (r.perform op).2.names then op.given?.or (r.get? n) else r.get? n := by
  rw [perform_snd]
  cases op with
  | declare m slot =>
    by_cases h : n = m
    · simp [get?_declare, mem_names_declare, Operation.name, Operation.given?, h]
    · simp [get?_declare, Operation.name, h, Ne.symm h]
  | set m v =>
    by_cases h : n = m
    · subst h
      by_cases hn : n ∈ r.names
      · simp [get?_set_self hn, Operation.name, Operation.given?, hn]
      · have hnone : r.get? n = none := get?_eq_none_iff.2 hn
        simp [get?_set, hnone, hn]
    · simp [get?_set, Operation.name, h, Ne.symm h]
  | get m | value m => simp [Operation.given?]

/-- An operation leaves all other members where they are. -/
theorem idxOf?_names_perform (r : Record) {op : Operation} {n : String} (h : n ≠ op.name) :
    (r.perform op).2.names.idxOf? n = r.names.idxOf? n := by
  rw [names_perform]
  cases op with
  | set m v | get m | value m => rfl
  | declare m slot =>
    show (if m ∈ r.names then r.names else r.names ++ [m]).idxOf? n = _
    split_ifs with hm
    · rfl
    · have hne : (m == n) = false := beq_false_of_ne (Ne.symm h)
      simp [List.idxOf?, List.findIdx?_append, hne]

theorem value?_eq_some_iff {r : Record} {n : String} {v : Value} :
    r.value? n = some v ↔ r.get? n = some (.set v) := by
  rw [value?]
  cases hs : r.get? n with
  | none => simp
  | some slot => cases slot <;> simp [Slot.value?]

/-! ## Runs -/

theorem run_concat (r : Record) (ops : List Operation) (op : Operation) :
    r.run (ops ++ [op]) = ((r.run ops).perform op).2 := by
  rw [run, List.foldl_append]
  rfl

theorem Tracks.mem_names {ops : List Operation} {r : Record} (h : Tracks ops r) {n : String} :
    n ∈ r.names ↔ n ∈ declaredNames ops := by
  rw [h.names, List.mem_eraseDups]

theorem tracks_new (name : String) : Tracks [] { name } where
  names := rfl
  nodup := List.nodup_nil
  get?_eq_some n slot := by simp [get?, not_lastGiven_nil]

/-- One operation goes on with the map that those before it have made. -/
theorem Tracks.perform {ops : List Operation} {r : Record} (h : Tracks ops r) (op : Operation) :
    Tracks (ops ++ [op]) (r.perform op).2 := by
  have hnames : (r.perform op).2.names = (declaredNames (ops ++ [op])).eraseDups := by
    rw [names_perform, declaredNames_concat]
    cases op.declared? with
    | none => simpa using h.names
    | some n =>
      simp only [Option.toList_some, eraseDups_concat, h.mem_names, ← h.names]
  refine ⟨hnames, nodup_names_perform h.nodup op, fun n slot => ?_⟩
  have hmem : n ∈ (r.perform op).2.names ↔ n ∈ declaredNames (ops ++ [op]) := by
    rw [hnames, List.mem_eraseDups]
  rw [get?_perform]
  by_cases hop : op.name = n
  · cases hgiven : op.given? with
    | none =>
      rw [Option.none_or, ite_self, h.get?_eq_some, lastGiven_concat_of_none fun _ => hgiven]
    | some given =>
      subst hop
      rw [lastGiven_concat_self hgiven]
      by_cases hdeclared : op.name ∈ declaredNames (ops ++ [op])
      · simp [hmem, hdeclared]
      · have hnone : r.get? op.name = none := by
          rw [get?_eq_none_iff, h.mem_names]
          intro hn
          exact hdeclared (by rw [declaredNames_concat]; exact List.mem_append_left _ hn)
        simp [hmem, hdeclared, hnone]
  · rw [if_neg fun hc => hop hc.1, h.get?_eq_some,
      lastGiven_concat_of_none fun hc => absurd hc hop]

theorem tracks_run (name : String) (ops : List Operation) : Tracks ops (run { name } ops) := by
  induction ops using List.reverseRecOn with
  | nil => exact tracks_new name
  | append_singleton ops op ih =>
    rw [run_concat]
    exact ih.perform op

theorem Tracks.holds {ops : List Operation} {r : Record} (h : Tracks ops r) : Holds ops r where
  toTracks := h
  size := by
    have hset : r.names.toFinset = (declaredNames ops).toFinset :=
      Finset.ext fun n => by rw [List.mem_toFinset, List.mem_toFinset, h.mem_names]
    rw [← hset, List.toFinset_card_of_nodup h.nodup, Record.names, List.length_map, Record.size]
  get?_eq_none n := by rw [get?_eq_none_iff, h.mem_names]
  toJson := by
    have hentries : (r.members.map fun m => (m.1, m.2.toJson)).map (·.1) = r.names := by
      rw [List.map_map]
      rfl
    refine ⟨_, rfl, hentries.trans h.names, hentries ▸ h.nodup, fun n => ?_⟩
    exact lookup_map (fun _ slot => slot.toJson) r.members n

theorem Tracks.performs {ops : List Operation} {r : Record} (h : Tracks ops r) (op : Operation) :
    Performs ops r op (r.perform op).1 (r.perform op).2 where
  declare n slot hop := by
    subst hop
    exact ⟨rfl, by simp [Record.perform, get?_declare]⟩
  set n v hop := by
    subst hop
    by_cases hn : n ∈ r.names
    · refine ⟨true, ?_, by simpa using h.mem_names.1 hn, fun _ => ?_, by simp⟩
      · rw [Record.perform, set?_of_mem hn]
      · rw [perform_snd]
        exact get?_set_self hn v
    · have hnone : r.set? n v = none := by rw [set?, if_neg (mt has_iff.1 hn)]
      refine ⟨false, ?_, by simpa using mt h.mem_names.2 hn, by simp, fun _ => ?_⟩
      · rw [Record.perform, hnone]
      · rw [Record.perform, hnone]
  get n hop := by
    subst hop
    exact ⟨rfl, rfl⟩
  value n hop := by
    subst hop
    exact ⟨r.value? n, rfl, fun v => value?_eq_some_iff, rfl⟩
  other n hn :=
    ⟨by rw [get?_perform, if_neg fun hc => hn hc.1.symm], idxOf?_names_perform r hn⟩

/-- After every run of operations on a new record, the record is the map that they have made, and
one more operation answers and changes what it has to. -/
theorem run_ordered (name : String) (ops : List Operation) :
    Holds ops (run { name } ops) ∧
      ∀ op, Performs ops (run { name } ops) op ((run { name } ops).perform op).1
        (run { name } (ops ++ [op])) := by
  have htracks := tracks_run name ops
  refine ⟨htracks.holds, fun op => ?_⟩
  rw [run_concat]
  exact htracks.performs op

example : (run { name := "QueryTicket" } [.declare "from" .unset, .set "date" (.bool true),
    .declare "sort" (.initial "kTime"), .declare "from" (.set (.string "Rome"))]).members =
      [("from", .set (.string "Rome")), ("sort", .initial "kTime")] := by decide

end CommandSchema.Record
