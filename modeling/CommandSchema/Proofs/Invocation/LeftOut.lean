import CommandSchema.Proofs.Invocation.Complete

/-!
# Leaving a field out

A field may be left out of whatever a command accepts exactly if it is optional or has an
initializer.

* `withoutFlag`: the arguments without the pairs that have a flag.
* `withoutMember`, `withNull`: the members of an object without one of them, and with null for it.
* `Schema.AcceptsWithoutFlag`, `Command.AcceptsWithoutMember`, `Command.AcceptsNull`: what has been
  accepted with a field is accepted without it.
* `Schema.acceptsWithoutFlag_iff`, `Command.acceptsWithoutMember_iff`, `Command.acceptsNull_iff`:
  the fields that may be left out.
-/

namespace CommandSchema

/-- The arguments without the pairs that have a flag. -/
def withoutFlag (flag : String) : List String → List String
  | name :: token :: args =>
    if name = flag then withoutFlag flag args else name :: token :: withoutFlag flag args
  | args => args

/-- The members of an object without those of a name. -/
def withoutMember (name : String) (members : List (String × Json)) : List (String × Json) :=
  members.filter (·.1 ≠ name)

/-- The members of an object with null as the one of a name. -/
def withNull (name : String) (members : List (String × Json)) : List (String × Json) :=
  withoutMember name members ++ [(name, .null)]

/-- Every vector that starts with the name of the command and is accepted is also accepted without
the pairs of the field. -/
def Schema.AcceptsWithoutFlag (s : Schema) (c : Command) (f : Field) : Prop :=
  ∀ args i, s.parseArgv (c.name :: args) = .ok i →
    ∃ i', s.parseArgv (c.name :: withoutFlag f.flag args) = .ok i'

namespace Command

/-- Every object that the command accepts it also accepts without the member of the field. The
members of an object have names of their own. -/
def AcceptsWithoutMember (c : Command) (f : Field) : Prop :=
  ∀ members r, (members.map (·.1)).Nodup → c.bind (.object members) = .ok r →
    ∃ r', c.bind (.object (withoutMember f.name members)) = .ok r'

/-- Every object that the command accepts it also accepts with null as the member of the field. -/
def AcceptsNull (c : Command) (f : Field) : Prop :=
  ∀ members r, (members.map (·.1)).Nodup → c.bind (.object members) = .ok r →
    ∃ r', c.bind (.object (withNull f.name members)) = .ok r'

/-! ## Values for all fields -/

/-- A value for every field of a command. -/
def blankValues (c : Command) : List (Field × Value) := c.fields.map fun f => (f, f.ofToken "")

theorem hasPlainItems_blank (f : Field) : (f.ofToken "").HasPlainItems := by
  intro item hitem
  cases ha : f.isArray with
  | true =>
    rw [Field.ofToken_of_isArray ha] at hitem
    cases hitem
  | false =>
    rw [Field.ofToken_of_not_isArray ha] at hitem
    cases ht : f.type <;> rw [ht] at hitem <;> cases hitem

theorem isAssignment_blankValues {foreignTypes : List String} {c : Command}
    (hr : c.KeepsRules foreignTypes) : c.IsAssignment c.blankValues := by
  have hfields : c.blankValues.map (·.1) = c.fields := by
    rw [blankValues, List.map_map]
    exact List.map_id _
  refine ⟨?_, ?_, ?_, ?_, ?_⟩
  · intro a ha
    rw [← hfields]
    exact List.mem_map_of_mem ha
  · rw [hfields]
    exact List.Nodup.of_map _ hr.names
  · intro a ha
    obtain ⟨f, -, rfl⟩ := List.mem_map.1 ha
    exact f.admits_ofToken ""
  · intro a ha
    obtain ⟨f, -, rfl⟩ := List.mem_map.1 ha
    exact hasPlainItems_blank f
  · intro f hf
    rw [hfields]
    exact List.mem_of_mem_filter hf

/-! ## Objects -/

section Objects

variable {foreignTypes : List String} {c : Command} {f : Field} {members : List (String × Json)}

theorem member?_withoutMember (name other : String) :
    Json.member? (withoutMember name members) other =
      if other = name then none else Json.member? members other := by
  unfold Json.member? withoutMember
  induction members with
  | nil => simp
  | cons m members ih =>
    obtain ⟨key, v⟩ := m
    by_cases hkey : key = name
    · subst hkey
      rw [List.filter_cons_of_neg (by simp), ih]
      split
      · rfl
      · next hne => rw [List.lookup_cons, beq_eq_false_iff_ne.2 hne]
    · rw [List.filter_cons_of_pos (by simpa using hkey), List.lookup_cons, List.lookup_cons]
      by_cases hother : other = key
      · subst hother
        simp [hkey]
      · rw [beq_eq_false_iff_ne.2 hother]
        exact ih

theorem member?_withNull (name other : String) :
    Json.member? (withNull name members) other =
      if other = name then some .null else Json.member? members other := by
  have hwithout : Json.member? (withoutMember name members) other = _ :=
    member?_withoutMember name other
  unfold Json.member? at hwithout ⊢
  rw [withNull, List.lookup_append, hwithout]
  split
  · next he => simp [he]
  · next hne => simp [List.lookup_cons, beq_eq_false_iff_ne.2 hne]

/-- An object that lacks a field and is otherwise as one that is accepted is accepted, if the field
may be absent. -/
theorem bind_of_lacks (hc : c.fields ≠ []) (hr : c.KeepsRules foreignTypes) (hf : f ∈ c.fields)
    (hmay : f.mayBeAbsent = true) {others : List (String × Json)}
    (hlacks : f.member? others = none)
    (hothers : ∀ n, n ≠ f.name → Json.member? others n = Json.member? members n) {r : Record}
    (h : c.bind (.object members) = .ok r) : ∃ r', c.bind (.object others) = .ok r' := by
  obtain ⟨hall, -⟩ := (bind_object_eq_ok_iff hc).1 h
  refine ⟨_, (bind_object_eq_ok_iff hc).2 ⟨fun g hg => ?_, rfl⟩⟩
  by_cases hgf : g = f
  · subst hgf
    exact ⟨none, Field.bind_eq_ok_iff.2 (.inr ⟨hlacks, hmay, rfl⟩)⟩
  · have hne : g.name ≠ f.name := fun he => hgf (List.inj_on_of_nodup_map hr.names hg hf he)
    have hsame : g.bind others = g.bind members := by
      unfold Field.bind Field.member?
      rw [hothers g.name hne]
    rw [hsame]
    exact hall g hg

/-- An object that is accepted does not lack a field, unless the field may be absent. -/
theorem mayBeAbsent_of_bind (hr : c.KeepsRules foreignTypes) (hf : f ∈ c.fields)
    (hlacks : f.member? members = none) {r : Record} (h : c.bind (.object members) = .ok r) :
    f.mayBeAbsent = true := by
  refine Field.mayBeAbsent_of_not_required fun hreq => ?_
  have hrequired := (completes_of_bind hr h c.exportName).required f (List.mem_filter.2 ⟨hf, hreq⟩)
  obtain ⟨j, hj⟩ := Input.supplies_call_iff.1 hrequired.1
  rw [hlacks] at hj
  cases hj

theorem member?_eq_none_of {name : String} (h : Json.member? members name = none ∨
    Json.member? members name = some .null) (hn : f.name = name) : f.member? members = none := by
  unfold Field.member?
  subst hn
  obtain h | h := h <;> rw [h]

theorem acceptsWithoutMember_iff (hr : c.KeepsRules foreignTypes) (hf : f ∈ c.fields) :
    c.AcceptsWithoutMember f ↔ f.mayBeAbsent = true := by
  have hc : c.fields ≠ [] := List.ne_nil_of_mem hf
  have hlacks : ∀ members : List (String × Json),
      f.member? (withoutMember f.name members) = none := fun members =>
    member?_eq_none_of (.inl (by rw [member?_withoutMember, if_pos rfl])) rfl
  constructor
  · intro h
    have hfull := isAssignment_blankValues hr
    obtain ⟨r, hbind⟩ := h _ _ (nodup_optionMembers hr hfull) (bind_optionMembers hr hfull)
    exact mayBeAbsent_of_bind hr hf (hlacks _) hbind
  · intro hmay members r _ h
    refine bind_of_lacks hc hr hf hmay (hlacks members) (fun n hn => ?_) h
    rw [member?_withoutMember, if_neg hn]

theorem acceptsNull_iff (hr : c.KeepsRules foreignTypes) (hf : f ∈ c.fields) :
    c.AcceptsNull f ↔ f.mayBeAbsent = true := by
  have hc : c.fields ≠ [] := List.ne_nil_of_mem hf
  have hlacks : ∀ members : List (String × Json),
      f.member? (withNull f.name members) = none := fun members =>
    member?_eq_none_of (.inr (by rw [member?_withNull, if_pos rfl])) rfl
  constructor
  · intro h
    have hfull := isAssignment_blankValues hr
    obtain ⟨r, hbind⟩ := h _ _ (nodup_optionMembers hr hfull) (bind_optionMembers hr hfull)
    exact mayBeAbsent_of_bind hr hf (hlacks _) hbind
  · intro hmay members r _ h
    refine bind_of_lacks hc hr hf hmay (hlacks members) (fun n hn => ?_) h
    rw [member?_withNull, if_neg hn]

end Objects

end Command

/-! ## Vectors -/

theorem withoutFlag_pairArgs (flag : String) (pairs : List (String × String)) :
    withoutFlag flag (pairArgs pairs) = pairArgs (pairs.filter (·.1 ≠ flag)) := by
  induction pairs with
  | nil => rfl
  | cons p pairs ih =>
    obtain ⟨name, token⟩ := p
    show withoutFlag flag (name :: token :: pairArgs pairs) = _
    by_cases hname : name = flag
    · rw [withoutFlag, if_pos hname, ih, List.filter_cons_of_neg (by simpa using hname)]
    · rw [withoutFlag, if_neg hname, ih, List.filter_cons_of_pos (by simpa using hname)]
      rfl

section Vectors

variable {foreignTypes : List String} {s : Schema} {c : Command} {f : Field}

/-- Without the pairs of a field that may be absent, a command still takes its arguments. -/
theorem Command.takes_withoutFlag (hw : c.IsWritten) (hr : c.KeepsRules foreignTypes)
    (hf : f ∈ c.fields) (hmay : f.mayBeAbsent = true) {args : List String} (h : c.Takes args) :
    c.Takes (withoutFlag f.flag args) := by
  obtain hnil | ⟨pairs, rfl, hflags, hrequired⟩ := h
  · exact .inl hnil
  refine .inr ⟨_, withoutFlag_pairArgs f.flag pairs, fun p hp => ?_, fun g hg => ?_⟩
  · exact hflags p (List.mem_of_mem_filter hp)
  · have hmem : g ∈ c.fields := List.mem_of_mem_filter hg
    have hne : g.flag ≠ f.flag := by
      intro he
      obtain rfl : g = f := List.inj_on_of_nodup_map hw.flags hmem hf he
      have hreq : g.isRequired = true := (List.mem_filter.1 hg).2
      rw [Field.isRequired, hmay] at hreq
      cases hreq
    have hflag := (supplies_iff_flag_mem hw hr hmem).1 (hrequired g hg)
    obtain ⟨p, hp, he⟩ := List.mem_map.1 hflag
    refine (supplies_iff_flag_mem hw hr hmem).2 (List.mem_map.2 ⟨p, ?_, he⟩)
    exact List.mem_filter.2 ⟨hp, by simpa [he] using hne⟩

/-- Without the pairs of a field that has to be supplied, it takes none. -/
theorem Command.mayBeAbsent_of_takes (hw : c.IsWritten) (hr : c.KeepsRules foreignTypes)
    (hf : f ∈ c.fields) {pairs : List (String × String)}
    (h : c.Takes (withoutFlag f.flag (pairArgs pairs))) : f.mayBeAbsent = true := by
  refine Field.mayBeAbsent_of_not_required fun hreq => ?_
  rw [withoutFlag_pairArgs] at h
  obtain hnil | ⟨pairs', he, -, hrequired⟩ := h
  · rw [hnil] at hf
    cases hf
  obtain rfl := pairArgs_injective he
  have hflag := (supplies_iff_flag_mem hw hr hf).1 (hrequired f (List.mem_filter.2 ⟨hf, hreq⟩))
  obtain ⟨p, hp, hname⟩ := List.mem_map.1 hflag
  simpa [hname] using (List.mem_filter.1 hp).2

theorem Schema.exists_parseArgv_iff (hs : s.IsLoaded foreignTypes) (hc : c ∈ s.commands)
    {args : List String} : (∃ i, s.parseArgv (c.name :: args) = .ok i) ↔ c.Takes args := by
  rw [← Command.exists_readRecord_iff]
  constructor
  · rintro ⟨i, hi⟩
    obtain ⟨name, args', c', he, hc', -, hread⟩ := parseArgv_eq_ok_iff.1 hi
    obtain ⟨rfl, rfl⟩ := List.cons.inj he
    rw [hs.command? hc] at hc'
    obtain rfl := Option.some.inj hc'
    exact ⟨_, hread⟩
  · rintro ⟨r, hread⟩
    exact ⟨⟨c.name, r⟩,
      parseArgv_eq_ok_iff.2 ⟨c.name, args, c, rfl, hs.command? hc, rfl, hread⟩⟩

theorem Schema.acceptsWithoutFlag_iff (hs : s.IsLoaded foreignTypes) (hc : c ∈ s.commands)
    (hf : f ∈ c.fields) : s.AcceptsWithoutFlag c f ↔ f.mayBeAbsent = true := by
  have hw := hs.written.commands c hc
  have hr := hs.rules.commands c hc
  constructor
  · intro h
    have hfull := Command.isAssignment_blankValues hr
    have hread := Command.readRecord_tokenArgs hw hr hfull
    have htakes := Command.exists_readRecord_iff.1 ⟨_, hread⟩
    obtain ⟨i, hi⟩ := (Schema.exists_parseArgv_iff hs hc).2 htakes
    have hargs : Command.tokenArgs c.blankValues =
        pairArgs (c.blankValues.map fun a => (a.1.flag, a.2.token)) := by
      rw [Command.tokenArgs, pairArgs, List.flatMap_map]
    rw [hargs] at hi
    exact Command.mayBeAbsent_of_takes hw hr hf ((Schema.exists_parseArgv_iff hs hc).1 (h _ i hi))
  · intro hmay args i hi
    have htakes := (Schema.exists_parseArgv_iff hs hc).1 ⟨i, hi⟩
    exact (Schema.exists_parseArgv_iff hs hc).2 (Command.takes_withoutFlag hw hr hf hmay htakes)

end Vectors

end CommandSchema
