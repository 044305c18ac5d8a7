import CommandSchema.Invocation
import Mathlib.Data.List.Nodup

/-!
# Members of a record

A record is a map from names to slots that keeps the order in which its members were declared.

* `Record.get?_set`, `Record.get?_declare`: the slot of a member after a change of any member.
* `Record.get?_setAll`: the slot of a member after a list of changes, of which the last one counts.
* `Record.eq_of_get?`: a record is known by its name, the order of its members and their slots.
* `Command.members_initialRecord`: the members that a command starts with.
-/

namespace CommandSchema

/-! ## Lists with distinct keys -/

section Keys

variable {α : Type}

/-- With distinct keys, a key looks up whatever stands under it. -/
theorem lookup_eq_some_iff_mem {l : List (String × α)} (h : (l.map (·.1)).Nodup) {k : String}
    {a : α} : l.lookup k = some a ↔ (k, a) ∈ l := by
  induction l with
  | nil => simp
  | cons p l ih =>
    obtain ⟨k', a'⟩ := p
    rw [List.map_cons, List.nodup_cons] at h
    by_cases hk : k = k'
    · subst hk
      have hl : (k, a) ∉ l := fun hm => h.1 (List.mem_map.2 ⟨(k, a), hm, rfl⟩)
      simp [hl, eq_comm]
    · have hb : (k == k') = false := by simpa using hk
      simp [List.lookup_cons, hb, hk, ih h.2]

/-- What stands under a key may change with the key and with what stands there. -/
theorem lookup_map {β : Type} (g : String → α → β) (l : List (String × α)) (k : String) :
    (l.map fun p => (p.1, g p.1 p.2)).lookup k = (l.lookup k).map (g k) := by
  induction l with
  | nil => rfl
  | cons p l ih =>
    obtain ⟨k', a⟩ := p
    by_cases hk : k = k'
    · subst hk
      simp
    · have hb : (k == k') = false := by simpa using hk
      simpa only [List.map_cons, List.lookup_cons, hb] using ih

/-- Lists with distinct keys and the same entries look up the same. -/
theorem lookup_congr {l l' : List (String × α)} (h : (l.map (·.1)).Nodup)
    (h' : (l'.map (·.1)).Nodup) (hmem : ∀ p, p ∈ l ↔ p ∈ l') (k : String) :
    l.lookup k = l'.lookup k := by
  refine Option.ext fun a => ?_
  rw [lookup_eq_some_iff_mem h, lookup_eq_some_iff_mem h', hmem]

end Keys

namespace Record

/-- The names of the members, in the order of their declaration. -/
def names (r : Record) : List String := r.members.map (·.1)

/-! ## Slots by name -/

theorem names_replace (name : String) (slot : Slot) (ms : List (String × Slot)) :
    (replace name slot ms).map (·.1) = ms.map (·.1) := by
  induction ms with
  | nil => rfl
  | cons m ms ih =>
    unfold replace
    split
    · next h => simp [h]
    · simp [ih]

theorem lookup_replace (name other : String) (slot : Slot) (ms : List (String × Slot)) :
    (replace name slot ms).lookup other =
      (ms.lookup other).map fun s => if other = name then slot else s := by
  induction ms with
  | nil => rfl
  | cons m ms ih =>
    obtain ⟨n, s⟩ := m
    unfold replace
    by_cases hn : n = name
    · subst hn
      by_cases ho : other = n
      · simp [ho]
      · have hb : (other == n) = false := by simpa using ho
        simp only [if_true, List.lookup_cons, hb, if_neg ho]
        exact Option.map_id'.symm
    · rw [if_neg hn]
      by_cases ho : other = n
      · subst ho
        simp [hn]
      · have hb : (other == n) = false := by simpa using ho
        simp only [List.lookup_cons, hb]
        exact ih

theorem has_iff {r : Record} {name : String} : r.has name = true ↔ name ∈ r.names := by
  simp [has, names]

theorem get?_eq_none_iff {r : Record} {name : String} : r.get? name = none ↔ name ∉ r.names := by
  rw [get?, List.lookup_eq_none_iff, names, List.mem_map]
  constructor
  · rintro h ⟨m, hm, rfl⟩
    exact (by simpa using h m hm : m.1 ≠ m.1) rfl
  · intro h m hm
    simpa using fun he => h ⟨m, hm, he.symm⟩

theorem isSome_get? {r : Record} {name : String} : (r.get? name).isSome ↔ name ∈ r.names := by
  rw [← not_iff_not, ← get?_eq_none_iff]
  simp

/-! ## One change -/

@[simp] theorem name_set (r : Record) (name : String) (v : Value) :
    (r.set name v).name = r.name := by
  unfold set set?
  split <;> rfl

@[simp] theorem names_set (r : Record) (name : String) (v : Value) :
    (r.set name v).names = r.names := by
  unfold set set?
  split
  · exact names_replace ..
  · rfl

theorem get?_set (r : Record) (name other : String) (v : Value) :
    (r.set name v).get? other =
      (r.get? other).map fun s => if other = name then .set v else s := by
  unfold set set?
  split
  · exact lookup_replace ..
  · next h =>
    have hn : r.get? name = none := by simpa [get?_eq_none_iff, has_iff] using h
    by_cases ho : other = name
    · simp [ho, hn]
    · simp [ho]

theorem get?_set_self {r : Record} {name : String} (h : name ∈ r.names) (v : Value) :
    (r.set name v).get? name = some (.set v) := by
  obtain ⟨slot, hslot⟩ := Option.isSome_iff_exists.1 (isSome_get?.2 h)
  rw [get?_set, hslot, Option.map_some, if_pos rfl]

/-- A member that the record has can be set. -/
theorem set?_of_mem {r : Record} {name : String} (h : name ∈ r.names) (v : Value) :
    r.set? name v = some (r.set name v) := by
  have hs : (r.set? name v).isSome := by
    rw [set?, if_pos (has_iff.2 h)]
    rfl
  obtain ⟨r', hr⟩ := Option.isSome_iff_exists.1 hs
  rw [set, hr]
  rfl

theorem replace_replace (name : String) (slot slot' : Slot) (ms : List (String × Slot)) :
    replace name slot' (replace name slot ms) = replace name slot' ms := by
  induction ms with
  | nil => rfl
  | cons m ms ih =>
    by_cases h : m.1 = name
    · simp [replace, h]
    · simp [replace, h, ih]

/-- Of two changes of one member, the second one counts. -/
theorem set_set (r : Record) (name : String) (v w : Value) :
    (r.set name v).set name w = r.set name w := by
  by_cases h : name ∈ r.names
  · have h' : name ∈ (r.set name v).names := by rwa [names_set]
    have hs := set?_of_mem h v
    have hw := set?_of_mem h w
    have hsw := set?_of_mem h' w
    rw [set?, if_pos (has_iff.2 h), Option.some.injEq] at hs hw
    rw [set?, if_pos (has_iff.2 h'), Option.some.injEq] at hsw
    rw [← hsw, ← hw, ← hs]
    exact congrArg (mk r.name) (replace_replace ..)
  · have hr (v : Value) : r.set name v = r := by
      rw [set, set?, if_neg (mt has_iff.1 h)]
      rfl
    rw [hr v]

@[simp] theorem name_declare (r : Record) (name : String) (slot : Slot) :
    (r.declare name slot).name = r.name := by
  unfold declare
  split <;> rfl

theorem names_declare (r : Record) (name : String) (slot : Slot) :
    (r.declare name slot).names = if name ∈ r.names then r.names else r.names ++ [name] := by
  unfold declare
  by_cases h : r.has name = true
  · rw [if_pos h, if_pos (has_iff.1 h)]
    exact names_replace ..
  · rw [if_neg h, if_neg (mt has_iff.2 h)]
    simp [names]

theorem mem_names_declare {r : Record} {name other : String} {slot : Slot} :
    other ∈ (r.declare name slot).names ↔ other ∈ r.names ∨ other = name := by
  rw [names_declare]
  split
  · next h => exact ⟨.inl, fun ho => ho.elim id (· ▸ h)⟩
  · simp

theorem nodup_names_declare {r : Record} (h : r.names.Nodup) (name : String) (slot : Slot) :
    (r.declare name slot).names.Nodup := by
  rw [names_declare]
  split
  · exact h
  · next hn =>
    refine List.nodup_append.2 ⟨h, by simp, ?_⟩
    rintro a ha b hb rfl
    exact hn (List.mem_singleton.1 hb ▸ ha)

theorem get?_declare (r : Record) (name other : String) (slot : Slot) :
    (r.declare name slot).get? other = if other = name then some slot else r.get? other := by
  unfold declare
  by_cases h : r.has name = true
  · have hs : (r.get? name).isSome := isSome_get?.2 (has_iff.1 h)
    rw [if_pos h]
    show (replace name slot r.members).lookup other = _
    rw [lookup_replace]
    by_cases ho : other = name
    · obtain ⟨s, hs⟩ := Option.isSome_iff_exists.1 hs
      subst ho
      simp [show r.members.lookup other = some s from hs]
    · simp [ho, get?]
  · have hn : r.get? name = none := get?_eq_none_iff.2 (mt has_iff.2 h)
    rw [if_neg h]
    show (r.members ++ [(name, slot)]).lookup other = _
    rw [List.lookup_append]
    by_cases ho : other = name
    · subst ho
      simp [show r.members.lookup other = none from hn]
    · have hb : (other == name) = false := by simpa using ho
      simp [ho, hb, get?, List.lookup_cons]

/-! ## Many changes -/

@[simp] theorem name_setAll (r : Record) (values : List (String × Value)) :
    (r.setAll values).name = r.name := by
  induction values generalizing r with
  | nil => rfl
  | cons v values ih => exact (ih _).trans (name_set ..)

@[simp] theorem names_setAll (r : Record) (values : List (String × Value)) :
    (r.setAll values).names = r.names := by
  induction values generalizing r with
  | nil => rfl
  | cons v values ih => exact (ih _).trans (names_set ..)

/-- A member holds the last value that it has been given, if any, and its old slot otherwise. -/
theorem get?_setAll (r : Record) (values : List (String × Value)) (name : String) :
    (r.setAll values).get? name =
      (r.get? name).map fun s => ((values.reverse.lookup name).map Slot.set).getD s := by
  induction values generalizing r with
  | nil => exact Option.map_id'.symm
  | cons v values ih =>
    obtain ⟨n, v⟩ := v
    show ((r.set n v).setAll values).get? name = _
    rw [ih, get?_set, List.reverse_cons, List.lookup_append, Option.map_map]
    congr 1
    funext s
    cases values.reverse.lookup name with
    | some w => rfl
    | none =>
      by_cases h : name = n
      · simp [h]
      · have hb : (name == n) = false := by simpa using h
        simp [h, hb, List.lookup_cons]

/-- Values with distinct names go to the members of these names, whatever their order. -/
theorem get?_setAll_of_nodup (r : Record) {values : List (String × Value)}
    (h : (values.map (·.1)).Nodup) (name : String) :
    (r.setAll values).get? name =
      (r.get? name).map fun s => ((values.lookup name).map Slot.set).getD s := by
  have hr : (values.reverse.map (·.1)).Nodup := by
    rw [List.map_reverse]
    exact List.nodup_reverse.2 h
  rw [get?_setAll, lookup_congr hr h fun p => List.mem_reverse]

/-! ## Equality -/

/-- Members with distinct names are given by their names and the slots under them. -/
theorem members_eq_of_nodup {r : Record} (h : r.names.Nodup) :
    r.members.map (fun m => (m.1, r.get? m.1)) = r.members.map (fun m => (m.1, some m.2)) := by
  refine List.map_congr_left fun m hm => ?_
  obtain ⟨before, after, hs⟩ := List.append_of_mem hm
  have hb : before.lookup m.1 = none := by
    rw [names, hs, List.map_append, List.nodup_append] at h
    refine List.lookup_eq_none_iff.2 fun p hp => ?_
    simpa using (h.2.2 p.1 (List.mem_map_of_mem hp) m.1 (by simp)).symm
  have hm : r.get? m.1 = some m.2 := by
    obtain ⟨n, s⟩ := m
    rw [get?, hs, List.lookup_append, hb]
    simp
  rw [hm]

/-- A record is known by its name, the order of its members and their slots. -/
theorem eq_of_get? {r r' : Record} (hname : r.name = r'.name) (hnames : r.names = r'.names)
    (hnodup : r.names.Nodup) (hget : ∀ n, r.get? n = r'.get? n) : r = r' := by
  have hm : r.members.map (fun m => (m.1, some m.2)) =
      r'.members.map (fun m => (m.1, some m.2)) := by
    rw [← members_eq_of_nodup hnodup, ← members_eq_of_nodup (hnames ▸ hnodup)]
    have hl := congrArg (List.map fun n => (n, r.get? n)) hnames
    simp only [names, List.map_map] at hl
    calc r.members.map (fun m => (m.1, r.get? m.1))
        = r'.members.map (fun m => (m.1, r.get? m.1)) := hl
      _ = r'.members.map (fun m => (m.1, r'.get? m.1)) := by simp only [hget]
  have hinj : Function.Injective fun m : String × Slot => (m.1, some m.2) := by
    intro a b hab
    simpa [Prod.ext_iff] using hab
  obtain ⟨name, members⟩ := r
  obtain ⟨name', members'⟩ := r'
  exact congr (congrArg mk hname) (List.map_injective_iff.2 hinj hm)

end Record

/-! ## The record of a command -/

namespace Command

private theorem foldl_declare_names (fields : List Field) (r : Record) (h : r.names.Nodup) :
    let r' := fields.foldl (fun r f => r.declare f.name f.initialSlot) r
    r'.name = r.name ∧ r'.names.Nodup ∧
      ∀ n, n ∈ r'.names ↔ n ∈ r.names ∨ n ∈ fields.map (·.name) := by
  induction fields generalizing r with
  | nil => simpa using h
  | cons f fields ih =>
    obtain ⟨hname, hnodup, hmem⟩ := ih _ (Record.nodup_names_declare h f.name f.initialSlot)
    refine ⟨hname.trans (Record.name_declare ..), hnodup, fun n => ?_⟩
    rw [List.foldl_cons, hmem, Record.mem_names_declare]
    simp [or_assoc, eq_comm]

@[simp] theorem name_initialRecord (c : Command) : c.initialRecord.name = c.recordName :=
  (foldl_declare_names c.fields { name := c.recordName } List.nodup_nil).1

theorem nodup_names_initialRecord (c : Command) : c.initialRecord.names.Nodup :=
  (foldl_declare_names c.fields { name := c.recordName } List.nodup_nil).2.1

theorem mem_names_initialRecord {c : Command} {n : String} :
    n ∈ c.initialRecord.names ↔ n ∈ c.fields.map (·.name) := by
  rw [initialRecord, (foldl_declare_names c.fields { name := c.recordName } List.nodup_nil).2.2 n]
  simp [Record.names]

private theorem foldl_declare_members (fields : List Field) (r : Record)
    (h : (r.names ++ fields.map (·.name)).Nodup) :
    (fields.foldl (fun r f => r.declare f.name f.initialSlot) r).members =
      r.members ++ fields.map fun f => (f.name, f.initialSlot) := by
  induction fields generalizing r with
  | nil => simp
  | cons f fields ih =>
    have hf : f.name ∉ r.names := by
      intro hmem
      exact (List.nodup_append.1 h).2.2 _ hmem _ (by simp) rfl
    have hd : r.declare f.name f.initialSlot =
        { r with members := r.members ++ [(f.name, f.initialSlot)] } :=
      if_neg (mt Record.has_iff.1 hf)
    rw [List.foldl_cons, hd, ih _ (by simpa [Record.names] using h)]
    simp

/-- Fields with distinct names make one member each, in their order. -/
theorem members_initialRecord {c : Command} (h : (c.fields.map (·.name)).Nodup) :
    c.initialRecord.members = c.fields.map fun f => (f.name, f.initialSlot) :=
  foldl_declare_members c.fields _ (by simpa [Record.names] using h)

theorem names_initialRecord {c : Command} (h : (c.fields.map (·.name)).Nodup) :
    c.initialRecord.names = c.fields.map (·.name) := by
  rw [Record.names, members_initialRecord h]
  simp

theorem get?_initialRecord {c : Command} (h : (c.fields.map (·.name)).Nodup) {f : Field}
    (hf : f ∈ c.fields) : c.initialRecord.get? f.name = some f.initialSlot := by
  have hn : (c.initialRecord.members.map (·.1)).Nodup := c.nodup_names_initialRecord
  rw [Record.get?, lookup_eq_some_iff_mem hn, members_initialRecord h]
  exact List.mem_map_of_mem hf

end Command

end CommandSchema
