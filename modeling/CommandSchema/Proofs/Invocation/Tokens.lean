import CommandSchema.Proofs.Invocation.Rejected
import CommandSchema.Proofs.Text.Runs

/-!
# Tokens between separators

Spaces cut a line into arguments, and bars cut the token of an array field into elements. Both are
the longest runs of other characters, so any number of separators more makes no difference, and no
other character cuts.

* `Command.exists_lastSupplies`: a name that pairs supply is supplied by a last one.
* `Schema.parseLine_runs`: the invocation of a line is that of its runs between spaces.
* `Field.ReadsPieces`: how an array field reads its elements.
* `Schema.arrays_of_pieces`: every array is made of the runs of a token between bars.
-/

namespace CommandSchema

theorem eq_map_ofList_iff {words : List String} {ws : List (List Char)} :
    words = ws.map String.ofList ↔ words.map String.toList = ws := by
  constructor
  · rintro rfl
    simp [Function.comp_def]
  · rintro rfl
    simp [Function.comp_def]

/-- Joined words stand with one separator between two of them. -/
theorem spread_intercalate {sep : Char} {words : List String}
    (h : ∀ w ∈ words, w ≠ "" ∧ sep ∉ w.toList) :
    Text.Spread sep (words.map String.toList) ((String.singleton sep).intercalate words).toList := by
  rw [String.toList_intercalate, String.toList_singleton]
  refine Text.spread_intercalate fun w hw => ?_
  obtain ⟨word, hword, rfl⟩ := List.mem_map.1 hw
  exact ⟨fun he => (h word hword).1 (String.toList_eq_nil_iff.1 he), (h word hword).2⟩

/-! ## Lines -/

namespace Schema

theorem eq_lineArgv_iff {words : List String} {line : String} :
    words = lineArgv line ↔ Text.Runs ' ' line.toList (words.map String.toList) := by
  rw [lineArgv, eq_map_ofList_iff, Text.runs_iff]

theorem lineArgv_of_spread {words : List String} {line : String}
    (h : Text.Spread ' ' (words.map String.toList) line.toList) : lineArgv line = words :=
  (eq_map_ofList_iff.2 (Text.spread_iff.1 h)).symm

theorem lineArgv_append (l₁ l₂ : String) :
    lineArgv (l₁ ++ " " ++ l₂) = lineArgv l₁ ++ lineArgv l₂ := by
  have htext : (l₁ ++ " " ++ l₂).toList = l₁.toList ++ ' ' :: l₂.toList := by simp
  rw [lineArgv, htext, Text.filledPieces_append_cons, List.map_append]
  rfl

theorem exists_lineArgv_of_infix {inner line : String} (hne : inner ≠ "") (h : ' ' ∉ inner.toList)
    (hin : inner.toList <:+: line.toList) :
    ∃ token ∈ lineArgv line, inner.toList <:+: token.toList := by
  have hfilled : inner.toList ≠ [] := fun he => hne (String.toList_eq_nil_iff.1 he)
  obtain ⟨p, hp, hinfix⟩ := Text.exists_filledPieces_of_infix hfilled h hin
  exact ⟨.ofList p, List.mem_map_of_mem hp, by rwa [String.toList_ofList]⟩

/-- A line is accepted, rejected and read as its arguments are, and these are its longest runs
without a space, in order. So words give the same line after line, whatever spaces are put around
them; a space cuts a line into the arguments of its two sides; and whatever holds no space is part
of one argument, other white space or not. -/
theorem parseLine_runs (s : Schema) :
    (∀ (words : List String) (line : String),
      Text.Spread ' ' (words.map String.toList) line.toList →
        s.parseLine line = s.parseArgv words) ∧
    (∀ words : List String, (∀ w ∈ words, w ≠ "" ∧ ' ' ∉ w.toList) →
      s.parseLine (" ".intercalate words) = s.parseArgv words) ∧
    (∀ line : String,
      (∀ words, words = lineArgv line ↔ Text.Runs ' ' line.toList (words.map String.toList)) ∧
        s.parseLine line = s.parseArgv (lineArgv line)) ∧
    (∀ l₁ l₂ : String, lineArgv (l₁ ++ " " ++ l₂) = lineArgv l₁ ++ lineArgv l₂) ∧
    ∀ inner line : String, inner ≠ "" → ' ' ∉ inner.toList → inner.toList <:+: line.toList →
      ∃ token ∈ lineArgv line, inner.toList <:+: token.toList := by
  have hspread : ∀ (words : List String) (line : String),
      Text.Spread ' ' (words.map String.toList) line.toList →
        s.parseLine line = s.parseArgv words := by
    intro words line h
    rw [parseLine, lineArgv_of_spread h]
  exact ⟨hspread, fun words h => hspread words _ (spread_intercalate h),
    fun line => ⟨fun _ => eq_lineArgv_iff, rfl⟩, lineArgv_append,
    fun _ _ => exists_lineArgv_of_infix⟩

/-- A tab and a no-break space are part of their argument; spaces around it are not. -/
theorem parseLine_runs_note :
    let note : Field := ⟨"-n", "note", .string, false, false, none⟩
    let book : Command := ⟨"book", [note]⟩
    let line := "  book   -n a\tb\u00a0c "
    let argv := ["book", "-n", "a\tb\u00a0c"]
    Text.Spread ' ' (argv.map String.toList) line.toList ∧
      parseLine ⟨[book]⟩ line = parseArgv ⟨[book]⟩ argv ∧
      parseArgv ⟨[book]⟩ argv = .ok ⟨"book", "Book", [("note", .set (.string "a\tb\u00a0c"))]⟩ ∧
      ∃ token ∈ lineArgv line, "\tb\u00a0".toList <:+: token.toList := by
  intro note book line argv
  have hspread : Text.Spread ' ' (argv.map String.toList) line.toList :=
    Text.spread_iff.2 (by decide)
  obtain ⟨hline, -, -, -, hinfix⟩ := parseLine_runs ⟨[book]⟩
  exact ⟨hspread, hline argv line hspread, by decide,
    hinfix "\tb\u00a0" line (by decide) (by decide) (by decide)⟩

end Schema

/-! ## Arrays -/

namespace Command

/-- Of the pairs that supply a name, one is the last. -/
theorem exists_lastSupplies {c : Command} {pairs : List (String × String)} {name : String}
    (h : c.Supplies pairs name) : ∃ f token, c.LastSupplies pairs name f token := by
  induction pairs with
  | nil =>
    obtain ⟨p, hp, -⟩ := h
    cases hp
  | cons p pairs ih =>
    by_cases hrest : c.Supplies pairs name
    · obtain ⟨f, token, before, flag, after, rfl, hlast⟩ := ih hrest
      exact ⟨f, token, p :: before, flag, after, rfl, hlast⟩
    · obtain ⟨q, hq, f, hf, hn⟩ := h
      rcases List.mem_cons.1 hq with rfl | hq
      · exact ⟨f, q.2, [], q.1, pairs, rfl, hf, hn, hrest⟩
      · exact absurd ⟨q, hq, f, hf, hn⟩ hrest

end Command

namespace Field

variable {f : Field}

/-- Only an array field has arrays as values. -/
theorem isArray_of_ofToken_eq_array {token : String} {vs : List Value}
    (h : f.ofToken token = .array vs) : f.isArray = true := by
  by_contra ha
  rw [ofToken_of_not_isArray (by simpa using ha)] at h
  cases ht : f.type <;> rw [ht] at h <;> cases h

theorem tokenPieces_append (t₁ t₂ : String) :
    tokenPieces (t₁ ++ "|" ++ t₂) = tokenPieces t₁ ++ tokenPieces t₂ := by
  have htext : (t₁ ++ "|" ++ t₂).toList = t₁.toList ++ '|' :: t₂.toList := by simp
  rw [tokenPieces, htext]
  exact (congrArg _ (Text.filledPieces_append_cons _ _)).trans (List.map_append ..)

theorem tokenPieces_of_not_mem {t : String} (h : '|' ∉ t.toList) :
    tokenPieces t = if t = "" then [] else [t] := by
  split
  · next he =>
    rw [he]
    rfl
  · next hne =>
    have hfilled : t.toList ≠ [] := fun he => hne (String.toList_eq_nil_iff.1 he)
    have hp : Text.filledPieces arraySeparator t.toList = [t.toList] :=
      Text.filledPieces_of_not_mem h hfilled
    rw [tokenPieces, hp, List.map_singleton, String.ofList_toList]

theorem eq_tokenPieces_iff {pieces : List String} {token : String} :
    pieces = tokenPieces token ↔ Text.Spread '|' (pieces.map String.toList) token.toList := by
  rw [tokenPieces, eq_map_ofList_iff, Text.spread_iff]
  rfl

/-- How a field reads the elements of an array from a token. -/
structure ReadsPieces (f : Field) : Prop where
  /-- A bar cuts a token into the elements of its two sides. -/
  cut : ∀ t₁ t₂ : String, ∃ vs₁ vs₂, f.ofToken t₁ = .array vs₁ ∧ f.ofToken t₂ = .array vs₂ ∧
    f.ofToken (t₁ ++ "|" ++ t₂) = .array (vs₁ ++ vs₂)
  /-- A token without a bar is an element, unless it is empty. -/
  plain : ∀ t : String, '|' ∉ t.toList →
    f.ofToken t = .array (if t = "" then [] else [f.type.ofToken t])
  /-- Pieces are one element each, however many bars stand around them. -/
  spread : ∀ (pieces : List String) (token : String),
    Text.Spread '|' (pieces.map String.toList) token.toList →
      f.ofToken token = .array (pieces.map f.type.ofToken)
  joined : ∀ pieces : List String, (∀ p ∈ pieces, p ≠ "" ∧ '|' ∉ p.toList) →
    f.ofToken ("|".intercalate pieces) = .array (pieces.map f.type.ofToken)
  /-- Every token is pieces with bars around them. -/
  every : ∀ token : String, ∃ pieces : List String,
    Text.Spread '|' (pieces.map String.toList) token.toList ∧
      f.ofToken token = .array (pieces.map f.type.ofToken)
  /-- Texts that are taken over at once are those that are made one by one. -/
  atOnce : ∀ pieces : List String, f.type.ofPieces pieces = pieces.map f.type.ofToken

theorem readsPieces (h : f.isArray = true) : f.ReadsPieces := by
  have hspread : ∀ (pieces : List String) (token : String),
      Text.Spread '|' (pieces.map String.toList) token.toList →
        f.ofToken token = .array (pieces.map f.type.ofToken) := by
    intro pieces token hp
    rw [ofToken_of_isArray h, eq_tokenPieces_iff.2 hp]
  refine ⟨fun t₁ t₂ => ?_, fun t ht => ?_, hspread, fun pieces hp => ?_, fun token => ?_,
    f.type.ofPieces_eq_map⟩
  · refine ⟨_, _, ofToken_of_isArray h t₁, ofToken_of_isArray h t₂, ?_⟩
    rw [ofToken_of_isArray h, tokenPieces_append, List.map_append]
  · rw [ofToken_of_isArray h, tokenPieces_of_not_mem ht]
    split <;> rfl
  · exact hspread pieces _ (spread_intercalate hp)
  · exact ⟨tokenPieces token, eq_tokenPieces_iff.1 rfl, ofToken_of_isArray h token⟩

end Field

/-- An array that pairs leave in a member is made of the token that supplies it last. -/
theorem Command.array_of_setAll_pairValues {c : Command} {pairs : List (String × String)}
    {n : String} {vs : List Value}
    (hn : (c.initialRecord.setAll (c.pairValues pairs)).get? n = some (.set (.array vs)))
    (hs : c.Supplies pairs n) :
    ∃ f token, ∃ pieces : List String, c.LastSupplies pairs n f token ∧
      f.isArray = true ∧ Text.Spread '|' (pieces.map String.toList) token.toList ∧
        vs = pieces.map f.type.ofToken := by
  obtain ⟨f, token, hlast⟩ := exists_lastSupplies hs
  have hslot := (c.get?_setAll_pairValues pairs n).1 f token hlast
  have hv : f.ofToken token = .array vs := by
    simpa using hslot.symm.trans hn
  have ha := Field.isArray_of_ofToken_eq_array hv
  obtain ⟨pieces, hpieces, hread⟩ := (Field.readsPieces ha).every token
  exact ⟨f, token, pieces, hlast, ha, hpieces, by simpa using hv.symm.trans hread⟩

/-- Array fields read their tokens piece by piece, and every array of an accepted vector is made
so: it is what its command starts with and no pair supplies it, or it is made of the pieces of the
last token that does. -/
theorem Schema.arrays_of_pieces (s : Schema) :
    (∀ f : Field, f.isArray = true → f.ReadsPieces) ∧
    ∀ name args c i, s.command? name = some c → s.parseArgv (name :: args) = .ok i →
      ∀ n vs, i.record.get? n = some (.set (.array vs)) →
        (¬ c.Supplies (argPairs args) n ∧
          c.initialRecord.get? n = some (.set (.array vs))) ∨
        ∃ f token, ∃ pieces : List String, c.LastSupplies (argPairs args) n f token ∧
          f.isArray = true ∧ Text.Spread '|' (pieces.map String.toList) token.toList ∧
            vs = pieces.map f.type.ofToken := by
  refine ⟨fun f h => Field.readsPieces h, ?_⟩
  intro name args c i hc hi n vs hn
  obtain ⟨name', args', c', hargv, hc', -, hr⟩ := parseArgv_eq_ok_iff.1 hi
  obtain ⟨rfl, rfl⟩ := List.cons.inj hargv
  obtain rfl : c = c' := Option.some.inj (hc.symm.trans hc')
  by_cases hf : c.fields = []
  · have hrecord : i.record = c.initialRecord := by
      simpa [Command.readRecord_of_fields_eq_nil hf, eq_comm] using hr
    refine .inl ⟨?_, hrecord ▸ hn⟩
    rintro ⟨p, -, f, hsel, -⟩
    have hmem : f ∈ c.fields := List.mem_of_find?_eq_some hsel
    simp [hf] at hmem
  · obtain ⟨pairs, rfl, -, -, hrecord⟩ := (Command.readRecord_eq_ok_iff hf).1 hr
    rw [hrecord] at hn
    rw [argPairs_pairArgs]
    by_cases hs : c.Supplies pairs n
    · exact .inr (Command.array_of_setAll_pairValues hn hs)
    · have hnone := (c.get?_setAll_pairValues pairs n).2 hs
      exact .inl ⟨hs, hnone.symm.trans hn⟩

/-- Bars at both ends and a doubled one make no element; a piece that is no number is zero. -/
theorem Schema.arrays_of_pieces_prices :
    let prices : Field := ⟨"-p", "prices", .int, false, true, none⟩
    let sell : Command := ⟨"sell", [prices]⟩
    let values : List Value := [.int 3, .int 0, .int (-4)]
    let argv := ["sell", "-p", "|3||x|-4|"]
    prices.ofToken "|3||x|-4|" = .array values ∧
      parseArgv ⟨[sell]⟩ argv = .ok ⟨"sell", "Sell", [("prices", .set (.array values))]⟩ ∧
      ∃ f token, ∃ pieces : List String, sell.LastSupplies (argPairs argv.tail) "prices" f token ∧
        f.isArray = true ∧ Text.Spread '|' (pieces.map String.toList) token.toList ∧
          values = pieces.map f.type.ofToken := by
  intro prices sell values argv
  obtain ⟨hreads, harrays⟩ := arrays_of_pieces ⟨[sell]⟩
  have hspread : Text.Spread '|' (["3", "x", "-4"].map String.toList) "|3||x|-4|".toList :=
    Text.spread_iff.2 (by decide)
  have htoken : prices.ofToken "|3||x|-4|" = .array values :=
    ((hreads prices rfl).spread _ _ hspread).trans (by decide +kernel)
  have hargv : parseArgv ⟨[sell]⟩ argv =
      .ok ⟨"sell", "Sell", [("prices", .set (.array values))]⟩ := by decide +kernel
  refine ⟨htoken, hargv, ?_⟩
  rcases harrays "sell" ["-p", "|3||x|-4|"] sell _ rfl hargv "prices" values rfl with ⟨-, h⟩ | h
  · exact absurd h (by decide)
  · exact h

end CommandSchema
