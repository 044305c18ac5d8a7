import CommandSchema.Yaml.Value

/-!
# Keys of YAML values

No mapping of a value that has been read has two equal keys, however deep it lies in the value.

* `Value.Distinct`: the property, for a value with everything in it.
* `Value.distinct_of_read?`: it holds of every value that is read.
* `Value.nodup_textKeys`: keys that are texts then differ as texts.
-/

namespace CommandSchema.Yaml.Value

/-- No mapping in the value has two equal keys. -/
inductive Distinct : Value → Prop
  | null : Distinct .null
  | boolean (b : Bool) : Distinct (.boolean b)
  | number (n : Number) : Distinct (.number n)
  | text (s : String) : Distinct (.text s)
  | sequence {items : List Value} (h : ∀ v ∈ items, Distinct v) : Distinct (.sequence items)
  | mapping {entries : List (Value × Value)} (hkeys : hasRepeatedKey entries = false)
      (hk : ∀ e ∈ entries, Distinct e.1) (hv : ∀ e ∈ entries, Distinct e.2) :
      Distinct (.mapping entries)
  | tagged (tag : String) {content : Value} (h : Distinct content) : Distinct (.tagged tag content)

/-! ## Readers that count down -/

/-- Whatever the reader gives has the property. -/
def Gives {α : Type} (m : Expansion α) (P : α → Prop) : Prop :=
  ∀ left a left', m left = some (a, left') → P a

section Gives

variable {α β : Type} {P : α → Prop} {Q : β → Prop}

theorem Gives.pure {a : α} (h : P a) : Gives (pure a) P := by
  intro left b left' hb
  cases hb
  exact h

theorem Gives.failure : Gives (failure : Expansion α) P := by
  intro left a left' h
  cases h

theorem Gives.lift {o : Option α} (h : ∀ a, o = some a → P a) : Gives (StateT.lift o) P := by
  intro left a left' ha
  cases o with
  | none => cases ha
  | some b =>
    cases ha
    exact h _ rfl

theorem Gives.bind {m : Expansion α} {f : α → Expansion β} (hm : Gives m P)
    (hf : ∀ a, P a → Gives (f a) Q) : Gives (m >>= f) Q := by
  intro left b left' h
  change (m left >>= fun p => f p.1 p.2) = _ at h
  cases hp : m left with
  | none => simp [hp] at h
  | some p =>
    rw [hp] at h
    exact hf p.1 (hm left p.1 p.2 hp) p.2 b left' h

theorem Gives.trivial (m : Expansion α) : Gives m fun _ => True := fun _ _ _ _ => True.intro

theorem Gives.mapM {f : α → Expansion β} {l : List α} (h : ∀ a ∈ l, Gives (f a) Q) :
    Gives (l.mapM f) fun bs => ∀ b ∈ bs, Q b := by
  induction l with
  | nil => exact Gives.pure (by simp)
  | cons a l ih =>
    rw [List.mapM_cons]
    refine (h a List.mem_cons_self).bind fun b hb => ?_
    refine (ih fun a ha => h a (List.mem_cons_of_mem _ ha)).bind fun bs hbs => ?_
    exact Gives.pure (by simpa using ⟨hb, hbs⟩)

end Gives

/-! ## Values that are read -/

theorem distinct_of_ofPlain? {text : String} {v : Value} (h : ofPlain? text = some v) :
    Distinct v := by
  unfold ofPlain? at h
  split at h <;> cases h
  · exact .null
  · exact .boolean _
  · exact .number _
  · exact .text _

theorem distinct_of_ofScalar? {tag : Option Octets} {isPlain : Bool} {text : String} {v : Value}
    (h : ofScalar? tag isPlain text = some v) : Distinct v := by
  have hplain : ∀ b : Bool, (if b then ofPlain? text else some (.text text)) = some v →
      Distinct v := by
    intro b h
    cases b with
    | true => exact distinct_of_ofPlain? h
    | false =>
      cases h
      exact .text _
  unfold ofScalar? at h
  split at h
  · exact hplain _ h
  · split at h
    · obtain ⟨b, -, rfl⟩ := Option.map_eq_some_iff.1 h
      exact .boolean b
    split at h
    · split at h <;> cases h
      exact .number _
    split at h
    · obtain ⟨n, -, rfl⟩ := Option.map_eq_some_iff.1 h
      exact .number n
    split at h
    · split at h <;> cases h
      exact .null
    split at h
    · exact distinct_of_ofPlain? h
    · cases h
      exact .text _

theorem gives_underTag {tag : Option Octets} {isTaken : Bool} {content : Expansion Value}
    (h : Gives content Distinct) : Gives (underTag tag isTaken content) Distinct := by
  unfold underTag
  split
  · exact h
  · exact Gives.failure
  · exact h.bind fun v hv => Gives.pure (.tagged _ hv)

theorem gives_ofEntries {entries : List (Value × Value)}
    (h : ∀ e ∈ entries, Distinct e.1 ∧ Distinct e.2) : Gives (ofEntries entries) Distinct := by
  unfold ofEntries
  cases hk : hasRepeatedKey entries with
  | true => exact Gives.failure
  | false => exact Gives.pure (.mapping hk (fun e he => (h e he).1) fun e he => (h e he).2)

theorem gives_scalar (p : Properties Nat) (isTaken isPlain : Bool) (text : String) :
    Gives (if isTaken then StateT.lift (ofScalar? none isPlain text)
      else underTag p.tag false (StateT.lift (ofScalar? p.tag isPlain text))) Distinct := by
  split
  · exact Gives.lift fun v hv => distinct_of_ofScalar? hv
  · exact gives_underTag (Gives.lift fun v hv => distinct_of_ofScalar? hv)

theorem gives_expand (targets : Targets) (depth : Nat) (isTaken : Bool) (n : Node Nat) :
    Gives (expand targets depth isTaken n) Distinct := by
  induction depth generalizing isTaken n with
  | zero =>
    unfold expand
    refine (Gives.trivial (followed targets n)).bind fun p _ => ?_
    obtain ⟨n, isTarget⟩ := p
    cases n with
    | «alias» slot => exact Gives.failure
    | scalar p isPlain text => exact gives_scalar p _ isPlain text
    | sequence p items => exact Gives.failure
    | mapping p entries => exact Gives.failure
  | succ depth ih =>
    unfold expand
    refine (Gives.trivial (followed targets n)).bind fun p _ => ?_
    obtain ⟨n, isTarget⟩ := p
    cases n with
    | «alias» slot => exact Gives.failure
    | scalar p isPlain text => exact gives_scalar p _ isPlain text
    | sequence p items =>
      refine gives_underTag ?_
      exact (Gives.mapM fun n _ => ih false n).bind fun items h => Gives.pure (.sequence h)
    | mapping p entries =>
      refine gives_underTag ?_
      refine (Gives.mapM (Q := fun e => Distinct e.1 ∧ Distinct e.2) fun e _ => ?_).bind
        fun entries h => gives_ofEntries h
      exact (ih _ e.1).bind fun k hk => (ih false e.2).bind fun v hv => Gives.pure ⟨hk, hv⟩

/-- No mapping of a value that has been read has two equal keys. -/
theorem distinct_of_read? {text : String} {v : Value} (h : read? text = some v) : Distinct v := by
  obtain ⟨d, -, h⟩ := Option.bind_eq_some_iff.1 h
  cases d with
  | none =>
    cases h
    exact .null
  | some n =>
    obtain ⟨p, hp, rfl⟩ :=
      Option.map_eq_some_iff.1 (show (expand _ _ _ n _).map (·.1) = some v from h)
    exact gives_expand _ _ _ _ _ _ _ hp

/-! ## Keys that are texts -/

/-- Entries whose keys are all texts, without two equal keys, have distinct texts as keys. -/
theorem nodup_textKeys {α : Type} {entries : List (Value × Value)} (key : α → String) {l : List α}
    (hkeys : hasRepeatedKey entries = false)
    (htext : entries.map (·.1) = l.map fun a => .text (key a)) : (l.map key).Nodup := by
  induction entries generalizing l with
  | nil =>
    cases l with
    | nil => exact List.nodup_nil
    | cons a l => simp at htext
  | cons e entries ih =>
    cases l with
    | nil => simp at htext
    | cons a l =>
      obtain ⟨k, v⟩ := e
      simp only [List.map_cons, List.cons.injEq] at htext
      obtain ⟨rfl, htext⟩ := htext
      simp only [hasRepeatedKey, Bool.or_eq_false_iff] at hkeys
      refine List.nodup_cons.2 ⟨fun hmem => ?_, ih hkeys.2 htext⟩
      obtain ⟨b, hb, hab⟩ := List.mem_map.1 hmem
      have hk : Value.text (key b) ∈ entries.map (·.1) := htext ▸ List.mem_map_of_mem hb
      obtain ⟨e, he, hk⟩ := List.mem_map.1 hk
      have hne := List.any_eq_false.1 hkeys.1 e he
      rw [hk, hab] at hne
      simp [same] at hne

end CommandSchema.Yaml.Value
