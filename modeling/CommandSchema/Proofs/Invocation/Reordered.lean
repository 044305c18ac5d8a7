import CommandSchema.Proofs.Invocation.Argv
import CommandSchema.Proofs.Invocation.Options
import CommandSchema.Proofs.Schema.Lookup
import CommandSchema.Proofs.Schema.Reordered

/-!
# The order of a schema and its invocations

The order of a schema drives what is generated and not what is accepted. Schemas that differ only in
the order of their commands and of the fields in them accept the same inputs and make the same of
them, but for the order of the members of a record, and of the fields that are missing.

* `Record.Reorders`, `Invocation.Reorders`, `ArgvError.Reorders`, `CallError.Resembles`: what is the
  same but for an order.
* `SameOutcome`: two values or two errors that are related.
* `Command.Reorders.sameOutcome_readRecord`, `Command.Reorders.sameOutcome_bind`: a command with its
  fields in another order.
* `Schema.sameOutcome_of_reorders`: a schema in another order.
-/

namespace CommandSchema

/-! ## What is the same but for an order -/

/-- The records are the same but for the order of their members. -/
structure Record.Reorders (r r' : Record) : Prop where
  name : r.name = r'.name
  names : r.names.Perm r'.names
  slots : ∀ name, r.get? name = r'.get? name

/-- The invocations are the same but for the order of the members. -/
structure Invocation.Reorders (i i' : Invocation) : Prop where
  command : i.command = i'.command
  record : i.record.Reorders i'.record

/-- The errors are the same but for the order of the fields that are missing. -/
inductive ArgvError.Reorders : ArgvError → ArgvError → Prop
  | same (e : ArgvError) : ArgvError.Reorders e e
  | missingFields (command : String) {fields fields' : List String} (h : fields.Perm fields') :
    ArgvError.Reorders (.missingFields command fields) (.missingFields command fields')

/-- The errors are the same, unless both say that the options were refused. -/
inductive CallError.Resembles : CallError → CallError → Prop
  | same (e : CallError) : CallError.Resembles e e
  | bind (e e' : BindError) : CallError.Resembles (.bind e) (.bind e')

/-- Two results that are both values or both errors, and related as such. -/
inductive SameOutcome {ε α : Type} (sameError : ε → ε → Prop) (sameValue : α → α → Prop) :
    Except ε α → Except ε α → Prop
  | ok {a b : α} (h : sameValue a b) : SameOutcome sameError sameValue (.ok a) (.ok b)
  | error {e e' : ε} (h : sameError e e') :
    SameOutcome sameError sameValue (.error e) (.error e')

theorem SameOutcome.map {ε α β : Type} {sameError : ε → ε → Prop} {sameValue : α → α → Prop}
    {sameResult : β → β → Prop} {x y : Except ε α} {f g : α → β}
    (h : SameOutcome sameError sameValue x y)
    (hfg : ∀ a b, sameValue a b → sameResult (f a) (g b)) :
    SameOutcome sameError sameResult (x.map f) (y.map g) := by
  cases h with
  | ok hab => exact .ok (hfg _ _ hab)
  | error he => exact .error he

/-! ## Records -/

/-- Records in another order stay so when values are supplied to both, of which the last ones agree
for every member. -/
theorem Record.Reorders.setAll {r r' : Record} (h : r.Reorders r')
    {values values' : List (String × Value)}
    (hvalues : ∀ name, values.reverse.lookup name = values'.reverse.lookup name) :
    (r.setAll values).Reorders (r'.setAll values') where
  name := by simpa using h.name
  names := by simpa using h.names
  slots := by
    intro name
    rw [get?_setAll, get?_setAll, h.slots, hvalues]

namespace Command

section Reorders

variable {foreignTypes : List String} {c d : Command}

theorem Reorders.initialRecord (h : c.Reorders d) (hn : (c.fields.map (·.name)).Nodup) :
    c.initialRecord.Reorders d.initialRecord := by
  have hn' : (d.fields.map (·.name)).Nodup := (h.2.map _).nodup_iff.1 hn
  have hmembers : c.initialRecord.members.Perm d.initialRecord.members := by
    rw [members_initialRecord hn, members_initialRecord hn']
    exact h.2.map _
  refine ⟨?_, hmembers.map _, fun name => ?_⟩
  · rw [name_initialRecord, name_initialRecord, h.recordName_eq]
  · exact lookup_congr c.nodup_names_initialRecord d.nodup_names_initialRecord
      (fun _ => hmembers.mem_iff) name

/-! ## Arguments -/

theorem Reorders.fieldByFlag?_eq (h : c.Reorders d) (hc : c.IsWritten) (flag : String) :
    c.fieldByFlag? flag = d.fieldByFlag? flag :=
  find?_key_of_perm h.2 hc.flags flag

/-- The same fields are supplied, or the same flag is refused. -/
theorem Reorders.readPairs_eq (h : c.Reorders d) (hc : c.IsWritten) (args : List String) :
    c.readPairs args = d.readPairs args := by
  fun_induction readPairs c args with
  | case1 => simp [readPairs]
  | case2 flag hflag =>
    rw [h.fieldByFlag?_eq hc] at hflag
    simp [readPairs, hflag, h.1]
  | case3 flag f hflag =>
    rw [h.fieldByFlag?_eq hc] at hflag
    simp [readPairs, hflag, h.1]
  | case4 flag token args hflag =>
    rw [h.fieldByFlag?_eq hc] at hflag
    simp [readPairs, hflag, h.1]
  | case5 flag token args f hflag ih =>
    rw [h.fieldByFlag?_eq hc] at hflag
    simp [readPairs, hflag, ih]

theorem Reorders.perm_missingFields (h : c.Reorders d) (supplied : List Field) :
    (c.missingFields supplied).Perm (d.missingFields supplied) :=
  (h.2.filter _).filter _

/-- Arguments are taken whatever the order of the fields is, and refused for the same reason. -/
theorem Reorders.sameOutcome_readRecord (h : c.Reorders d) (hw : c.IsWritten)
    (hr : c.KeepsRules foreignTypes) (args : List String) :
    SameOutcome ArgvError.Reorders Record.Reorders (c.readRecord args) (d.readRecord args) := by
  have hinitial := h.initialRecord hr.names
  have hempty : c.fields.isEmpty = d.fields.isEmpty := h.2.isEmpty_eq
  unfold readRecord
  rw [← hempty, ← h.readPairs_eq hw args, ← h.1]
  split
  · exact .ok hinitial
  cases c.readPairs args with
  | error e => exact .error (.same e)
  | ok pairs =>
    dsimp only
    have hmissing := h.perm_missingFields (pairs.map (·.1))
    cases hc : c.missingFields (pairs.map (·.1)) with
    | nil =>
      rw [hc, List.nil_perm] at hmissing
      rw [hmissing]
      exact .ok (hinitial.setAll fun _ => rfl)
    | cons f missing =>
      rw [hc] at hmissing
      cases hd : d.missingFields (pairs.map (·.1)) with
      | nil => simp [hd] at hmissing
      | cons g missing' =>
        rw [hd] at hmissing
        exact .error (.missingFields c.name (hmissing.map _))

/-! ## Options -/

/-- The options are values for the same fields. -/
theorem Reorders.lookup_boundValues (h : c.Reorders d) (hn : (c.fields.map (·.name)).Nodup)
    (members : List (String × Json)) (name : String) :
    (c.boundValues members).reverse.lookup name = (d.boundValues members).reverse.lookup name := by
  have hperm : (c.boundValues members).Perm (d.boundValues members) := h.2.filterMap _
  have hc : ((c.boundValues members).reverse.map (·.1)).Nodup := by
    rw [List.map_reverse]
    exact List.nodup_reverse.2 (nodup_namedValues hn)
  have hd : ((d.boundValues members).reverse.map (·.1)).Nodup := by
    rw [List.map_reverse]
    exact List.nodup_reverse.2 (nodup_namedValues ((h.2.map _).nodup_iff.1 hn))
  refine lookup_congr hc hd (fun p => ?_) name
  rw [List.mem_reverse, List.mem_reverse, hperm.mem_iff]

/-- Options are taken whatever the order of the fields is. Which of them is refused depends on the
order if several could be. -/
theorem Reorders.sameOutcome_bind (h : c.Reorders d) (hn : (c.fields.map (·.name)).Nodup)
    (v : Json) : SameOutcome (fun _ _ => True) Record.Reorders (c.bind v) (d.bind v) := by
  have hinitial := h.initialRecord hn
  by_cases hc : c.fields = []
  · have hd : d.fields = [] := by
      have hperm := h.2
      rwa [hc, List.nil_perm] at hperm
    rw [bind_of_fields_eq_nil hc, bind_of_fields_eq_nil hd]
    exact .ok hinitial
  have hd : d.fields ≠ [] := fun hd => hc (List.perm_nil.1 (hd ▸ h.2))
  cases v with
  | object members =>
    have hall : (∀ f ∈ c.fields, ∃ o, f.bind members = .ok o) ↔
        ∀ f ∈ d.fields, ∃ o, f.bind members = .ok o := by
      simp only [h.2.mem_iff]
    by_cases hbound : ∀ f ∈ c.fields, ∃ o, f.bind members = .ok o
    · rw [(bind_object_eq_ok_iff hc).2 ⟨hbound, rfl⟩,
        (bind_object_eq_ok_iff hd).2 ⟨hall.1 hbound, rfl⟩]
      exact .ok (hinitial.setAll (h.lookup_boundValues hn members))
    · cases hce : c.bind (.object members) with
      | ok r => exact absurd ((bind_object_eq_ok_iff hc).1 hce).1 hbound
      | error e =>
        cases hde : d.bind (.object members) with
        | ok r => exact absurd (hall.2 ((bind_object_eq_ok_iff hd).1 hde).1) hbound
        | error e' => exact .error trivial
  | _ => simpa [bind, hc, hd] using .error trivial

end Reorders

end Command

/-! ## Schemas -/

namespace Schema

section Reorders

variable {foreignTypes foreignTypes' : List String} {s s' : Schema}

/-- A command that is found by a key has its reordered one found by the same key. -/
theorem Reorders.rel_find? (h : s.Reorders s') {key : Command → String}
    (hkey : ∀ c d, c.Reorders d → key c = key d) (hn : (s'.commands.map key).Nodup) (k : String) :
    Option.Rel Command.Reorders (s.commands.find? (key · == k))
      (s'.commands.find? (key · == k)) := by
  cases hfind : s.commands.find? (key · == k) with
  | none =>
    have hnone : s'.commands.find? (key · == k) = none := by
      refine List.find?_eq_none.2 fun d hd hdk => ?_
      obtain ⟨c, hc, hcd⟩ := h.exists_command d hd
      refine List.find?_eq_none.1 hfind c hc ?_
      rwa [hkey c d hcd]
    rw [hnone]
    exact .none
  | some c =>
    obtain ⟨hc, hck⟩ := mem_of_find?_key hfind
    obtain ⟨d, hd, hdc⟩ := h.symm.exists_command c hc
    have hdk : key d = k := (hkey d c hdc).trans hck
    rw [(find?_key_eq_some_iff hn).2 ⟨hd, hdk⟩]
    exact .some hdc.symm

/-- A vector is accepted whatever the order is, and rejected for the same reason. -/
theorem Reorders.sameOutcome_parseArgv (h : s.Reorders s') (hs : s.IsLoaded foreignTypes)
    (hs' : s'.IsLoaded foreignTypes') (argv : List String) :
    SameOutcome ArgvError.Reorders Invocation.Reorders (s.parseArgv argv) (s'.parseArgv argv) := by
  cases argv with
  | nil => exact .error (.same _)
  | cons name args =>
    have hfound : Option.Rel Command.Reorders (s.command? name) (s'.command? name) :=
      h.rel_find? (fun _ _ hcd => hcd.1) hs'.written.names name
    unfold parseArgv
    dsimp only
    generalize hc : s.command? name = found at hfound ⊢
    generalize s'.command? name = found' at hfound ⊢
    cases hfound with
    | none => exact .error (.same _)
    | @some c d hcd =>
      have hmem : c ∈ s.commands := (mem_of_find?_key hc).1
      have hrecord := hcd.sameOutcome_readRecord (hs.written.commands c hmem)
        (hs.rules.commands c hmem) args
      exact hrecord.map fun r r' hr => ⟨hcd.1, hr⟩

/-- Options are accepted whatever the order is, and rejected for an export that does not exist or
for some reason of their own. -/
theorem Reorders.sameOutcome_bind (h : s.Reorders s') (hs : s.IsLoaded foreignTypes)
    (hs' : s'.IsLoaded foreignTypes') (exportName : String) (v : Json) :
    SameOutcome CallError.Resembles Invocation.Reorders (s.bind exportName v)
      (s'.bind exportName v) := by
  have hfound : Option.Rel Command.Reorders (s.commandByExport? exportName)
      (s'.commandByExport? exportName) :=
    h.rel_find? (fun _ _ hcd => hcd.exportName_eq) hs'.exportNames exportName
  unfold bind
  generalize hc : s.commandByExport? exportName = found at hfound ⊢
  generalize s'.commandByExport? exportName = found' at hfound ⊢
  cases hfound with
  | none => exact .error (.same _)
  | @some c d hcd =>
    have hmem : c ∈ s.commands := (mem_of_find?_key hc).1
    have hrecord := hcd.sameOutcome_bind (hs.rules.commands c hmem).names v
    dsimp only
    generalize c.bind v = outcome at hrecord ⊢
    generalize d.bind v = outcome' at hrecord ⊢
    cases hrecord with
    | ok hr => exact .ok ⟨hcd.1, hr⟩
    | error => exact .error (.bind _ _)

end Reorders

/-- With the commands alone in another order, every lookup gives what it gave. -/
theorem lookups_eq_of_perm {foreignTypes : List String} {s s' : Schema}
    (hs : s.IsLoaded foreignTypes) (h : s.commands.Perm s'.commands) :
    s.command? = s'.command? ∧ s.commandByExport? = s'.commandByExport? :=
  ⟨funext fun name => find?_key_of_perm h hs.written.names name,
    funext fun exportName => find?_key_of_perm h hs.exportNames exportName⟩

/-- What a schema accepts and what it makes of it does not depend on its order. A record has its
members in the order of the fields, an error names what is missing in that order, and of several
options that are wrong the first one in that order is reported. The order of the commands shows
nowhere. -/
theorem sameOutcome_of_reorders {text text' : String} {config config' : Config} {s s' : Schema}
    (hs : load text config = .ok s) (hs' : load text' config' = .ok s') (h : s.Reorders s') :
    (∀ argv, SameOutcome ArgvError.Reorders Invocation.Reorders (s.parseArgv argv)
      (s'.parseArgv argv)) ∧
    (∀ line, SameOutcome ArgvError.Reorders Invocation.Reorders (s.parseLine line)
      (s'.parseLine line)) ∧
    (∀ exportName v, SameOutcome CallError.Resembles Invocation.Reorders (s.bind exportName v)
      (s'.bind exportName v)) ∧
    (s.commands.Perm s'.commands →
      s.parseArgv = s'.parseArgv ∧ s.parseLine = s'.parseLine ∧ s.bind = s'.bind) := by
  have hl := isLoaded_of_load hs
  have hl' := isLoaded_of_load hs'
  refine ⟨h.sameOutcome_parseArgv hl hl', fun line => h.sameOutcome_parseArgv hl hl' _,
    h.sameOutcome_bind hl hl', fun hperm => ?_⟩
  obtain ⟨hcommand, hexport⟩ := lookups_eq_of_perm hl hperm
  have hargv : s.parseArgv = s'.parseArgv := by
    funext argv
    cases argv with
    | nil => rfl
    | cons name args =>
      unfold parseArgv
      rw [hcommand]
  refine ⟨hargv, ?_, ?_⟩
  · funext line
    exact congrFun hargv (lineArgv line)
  · funext exportName v
    unfold bind
    rw [hexport]

/-- A schema with its commands in another order, and one that has the fields in another order, too.
What the latter misses first is not what the former does. -/
theorem sameOutcome_of_reorders_buy :
    let client : Field := ⟨"-c", "client", .string, false, false, none⟩
    let prices : Field := ⟨"-p", "prices", .int, false, true, none⟩
    let count : Field := ⟨"-n", "count", .int, false, false, some "1"⟩
    let buy : Command := ⟨"buy", [client, count, prices]⟩
    let buy' : Command := ⟨"buy", [prices, client, count]⟩
    let exit : Command := ⟨"exit", []⟩
    load "buy:\n  -c: string client\n  -n: int count = 1\n  -p: int prices[]\nexit:\n" {} =
        .ok ⟨[buy, exit]⟩ ∧
      load "exit:\nbuy:\n  -p: int prices[]\n  -c: string client\n  -n: int count = 1\n" {} =
        .ok ⟨[exit, buy']⟩ ∧
      load "exit:\nbuy:\n  -c: string client\n  -n: int count = 1\n  -p: int prices[]\n" {} =
        .ok ⟨[exit, buy]⟩ ∧
      parseArgv ⟨[buy, exit]⟩ ["buy"] = .error (.missingFields "buy" ["client", "prices"]) ∧
      parseArgv ⟨[exit, buy']⟩ ["buy"] = .error (.missingFields "buy" ["prices", "client"]) ∧
      (∀ argv, SameOutcome ArgvError.Reorders Invocation.Reorders (parseArgv ⟨[buy, exit]⟩ argv)
        (parseArgv ⟨[exit, buy']⟩ argv)) ∧
      (∀ exportName v, SameOutcome CallError.Resembles Invocation.Reorders
        (bind ⟨[buy, exit]⟩ exportName v) (bind ⟨[exit, buy']⟩ exportName v)) ∧
      parseArgv ⟨[buy, exit]⟩ = parseArgv ⟨[exit, buy]⟩ := by
  intro client prices count buy buy' exit
  have hs : load "buy:\n  -c: string client\n  -n: int count = 1\n  -p: int prices[]\nexit:\n" {} =
      .ok ⟨[buy, exit]⟩ := load_of_toOption (by decide +kernel)
  have hs' : load
      "exit:\nbuy:\n  -p: int prices[]\n  -c: string client\n  -n: int count = 1\n" {} =
      .ok ⟨[exit, buy']⟩ := load_of_toOption (by decide +kernel)
  have hs'' : load
      "exit:\nbuy:\n  -c: string client\n  -n: int count = 1\n  -p: int prices[]\n" {} =
      .ok ⟨[exit, buy]⟩ := load_of_toOption (by decide +kernel)
  have hfields : buy.fields.Perm buy'.fields := by decide +kernel
  have hreorders : Reorders ⟨[buy, exit]⟩ ⟨[exit, buy']⟩ :=
    ⟨[buy', exit], .cons ⟨rfl, hfields⟩ (.cons ⟨rfl, .refl _⟩ .nil), .swap ..⟩
  have hswapped : Reorders ⟨[buy, exit]⟩ ⟨[exit, buy]⟩ :=
    ⟨[buy, exit], .cons ⟨rfl, .refl _⟩ (.cons ⟨rfl, .refl _⟩ .nil), .swap ..⟩
  obtain ⟨hargv, -, hbind, -⟩ := sameOutcome_of_reorders hs hs' hreorders
  obtain ⟨-, -, -, hsame⟩ := sameOutcome_of_reorders hs hs'' hswapped
  refine ⟨hs, hs', hs'', ?_, ?_, hargv, hbind, (hsame (.swap ..)).1⟩
  · decide +kernel
  · decide +kernel

end Schema

end CommandSchema
