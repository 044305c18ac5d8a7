import CommandSchema.Text.Blank
import CommandSchema.Yaml.Node.OfTokens
import Mathlib.Data.List.TakeWhile

/-!
# YAML texts of white space

YAML knows less white space than Unicode. Between tokens it passes spaces and line breaks alone. A
tab cannot stand where a key might start, a vertical tab or a form feed nowhere at all, and every
other white space is a character like any other, with which a scalar starts.

* `isPassed`: the white space that is passed between tokens.
* `skipToToken_locate`, `plainFrom_locate`: what the readers of tokens and of plain scalars make of
  white space.
* `ofText?_of_passed`: white space that is passed makes a text without a document.
* `ofText?_of_not_passed`: any other makes a scalar of it, or no YAML.
-/

namespace CommandSchema.Yaml

open Text

/-- White space that is passed between tokens: a space, or a line break of any spelling. -/
def isPassed (c : Char) : Bool := c == ' ' || c == '\r' || c == '\x85' || isBreak c

/-! ## Characters -/

/-- It is a space, or one of the five characters that break a line by themselves. -/
theorem isPassed_cases {c : Char} (h : isPassed c = true) :
    c = ' ' ∨ c = '\n' ∨ c = '\r' ∨ c = '\x85' ∨ c = '\u2028' ∨ c = '\u2029' := by
  simp only [isPassed, isBreak, Bool.or_eq_true, beq_iff_eq] at h
  obtain ((h | h) | h) | (h | h) | h := h <;> simp [h, lineSeparator, paragraphSeparator]

theorem isBlank_of_isPassed {c : Char} (h : isPassed c = true) : isBlank c = true := by
  obtain rfl | rfl | rfl | rfl | rfl | rfl := isPassed_cases h <;> rfl

theorem isAllowed_of_isPassed {c : Char} (h : isPassed c = true) : isAllowed c = true := by
  obtain rfl | rfl | rfl | rfl | rfl | rfl := isPassed_cases h <;> decide

section

variable {c : Char} (h : isBlank c = true)

include h

/-- White space is none of the characters that are no white space. -/
theorem beq_eq_false_of_isBlank (x : Char) (hx : isBlank x = false) : (c == x) = false := by
  refine beq_eq_false_iff_ne.2 ?_
  rintro rfl
  rw [h] at hx
  cases hx

theorem isIndicator_of_isBlank : Lexer.isIndicator c = false := by
  simp (disch := decide) only [Lexer.isIndicator, isFlowMark, beq_eq_false_of_isBlank h,
    Bool.or_false]

theorem isEnd_of_isBlank : isEnd c = false := beq_eq_false_of_isBlank h '\x00' rfl

end

/-! ## Between tokens -/

section

variable {offset line column : Nat} {cs : List Char}

/-- A character that is no line break is placed as it is. -/
theorem locate_cons {c : Char} (h : isPassed c = false) : locate offset line column (c :: cs) =
    ⟨c, offset, line, column⟩ :: locate (offset + 1) line (column + 1) cs := by
  simp only [isPassed, Bool.or_eq_false_iff, beq_eq_false_iff_ne] at h
  obtain ⟨⟨⟨-, hr⟩, hnext⟩, hb⟩ := h
  have hline : c ≠ '\n' := by
    rintro rfl
    cases hb
  rw [locate.eq_3 _ _ _ _ _ fun _ hc _ => hr hc, if_neg (by simp [hr, hline, hnext]),
    if_neg (by simp [hb])]

theorem locate_ne_nil (offset line column : Nat) (cs : List Char) :
    locate offset line column cs ≠ [] := by
  fun_cases locate offset line column cs <;> exact List.cons_ne_nil _ _

/-- The end is not passed. -/
theorem skipToToken_end {g : Glyph} (h : isEnd g.char = true) (allowsKey : Bool) :
    Lexer.skipToToken false allowsKey false [g] = (allowsKey, [g]) := by
  have hc : g.char = '\x00' := beq_iff_eq.1 h
  rw [Lexer.skipToToken, hc]
  rfl

/-- Up to the next token white space is passed from its start, and what is left of it is not
looked at. -/
theorem skipToToken_locate (h : ∀ c ∈ cs, isBlank c = true) (offset line column : Nat) :
    ∃ offset' line' column', Lexer.skipToToken false true false (locate offset line column cs) =
      (true, locate offset' line' column' (cs.dropWhile isPassed)) := by
  fun_induction locate offset line column cs with
  | case1 offset line column => exact ⟨offset, line, column, rfl⟩
  | case2 offset line column cs ih =>
    exact ih fun c hc => h c (List.mem_cons_of_mem _ (List.mem_cons_of_mem _ hc))
  | case3 offset line column c cs hne hc ih =>
    have hpassed : isPassed c = true := by
      simp only [Bool.or_eq_true, decide_eq_true_eq] at hc
      obtain (rfl | rfl) | rfl := hc <;> rfl
    rw [List.dropWhile_cons_of_pos hpassed]
    exact ih fun c hc => h c (List.mem_cons_of_mem _ hc)
  | case4 offset line column c cs hne hc hb ih =>
    have hpassed : isPassed c = true := by simp [isPassed, hb]
    rw [List.dropWhile_cons_of_pos hpassed, Lexer.skipToToken, if_pos hb]
    exact ih fun c hc => h c (List.mem_cons_of_mem _ hc)
  | case5 offset line column c cs hne hc hb ih =>
    have hblank := h c List.mem_cons_self
    rw [Lexer.skipToToken, if_neg hb, isEnd_of_isBlank hblank,
      beq_eq_false_of_isBlank hblank '\ufeff' rfl,
      beq_eq_false_of_isBlank hblank '#' rfl]
    by_cases hspace : c = ' '
    · subst hspace
      exact ih fun c hc => h c (List.mem_cons_of_mem _ hc)
    · have hpassed : isPassed c = false := by
        simp only [Bool.or_eq_true, decide_eq_true_eq, not_or] at hc
        simp [isPassed, hspace, hc, hb]
      rw [List.dropWhile_cons_of_neg (by simp [hpassed])]
      refine ⟨offset, line, column, ?_⟩
      rw [locate_cons hpassed]
      simp [hspace]

/-! ## In a plain scalar -/

/-- Spaces, tabs and line breaks widen the gap after the last word. -/
theorem plainFrom_gap {g : Glyph} (h : isGapChar g.char = true ∨ isBreak g.char = true) (gap : Gap)
    (done : List Char) (s : Source) :
    plainFrom false 0 gap done (g :: s) = plainFrom false 0 (gap.add g.char) done s := by
  rw [plainFrom, if_pos (by simpa using h), if_neg (by simp)]

/-- Other white space goes on with the scalar. -/
theorem plainFrom_wide {g : Glyph} (h : isBlank g.char = true) (hg : isGapChar g.char = false)
    (hb : isBreak g.char = false) (gap : Gap) (done : List Char) (s : Source) :
    plainFrom false 0 gap done (g :: s) =
      plainFrom false 0 {} (g.char :: (gap.folded.reverse ++ done)) s := by
  have hends : plainEnds false 0 gap (g :: s) = false := by
    have hmarker : isDocumentMarker (g :: s) = false := by
      simp [isDocumentMarker, isMarker, peek, beq_eq_false_of_isBlank h '-' rfl,
        beq_eq_false_of_isBlank h '.' rfl]
    simp [plainEnds, peek, isEnd_of_isBlank h, beq_eq_false_of_isBlank h ':' rfl,
      beq_eq_false_of_isBlank h '#' rfl, hmarker]
  rw [plainFrom, hg, hb, hends]
  rfl

/-- White space never ends a plain scalar outside all collections: it goes on up to the end. -/
theorem plainFrom_locate (h : ∀ c ∈ cs, isBlank c = true) (offset line column : Nat) (gap : Gap)
    (done : List Char) :
    ∃ text isBroken last, plainFrom false 0 gap done (locate offset line column cs) =
      some (text, isBroken, [last]) ∧ isEnd last.char = true ∧ (done ≠ [] → text ≠ []) := by
  -- the induction is on the characters that are left, for every gap and every text before them
  fun_induction locate offset line column cs generalizing gap done with
  | case1 offset line column =>
    exact ⟨done.reverse, gap.isBroken, ⟨'\x00', offset, line, column⟩, rfl, rfl,
      fun hdone => by simpa using hdone⟩
  | case2 offset line column cs ih =>
    rw [plainFrom_gap (.inr rfl)]
    exact ih (fun c hc => h c (List.mem_cons_of_mem _ (List.mem_cons_of_mem _ hc))) _ _
  | case3 offset line column c cs hne hc ih =>
    rw [plainFrom_gap (.inr rfl)]
    exact ih (fun c hc => h c (List.mem_cons_of_mem _ hc)) _ _
  | case4 offset line column c cs hne hc hb ih =>
    rw [plainFrom_gap (.inr hb)]
    exact ih (fun c hc => h c (List.mem_cons_of_mem _ hc)) _ _
  | case5 offset line column c cs hne hc hb ih =>
    have hrest := ih fun c hc => h c (List.mem_cons_of_mem _ hc)
    by_cases hg : isGapChar c = true
    · rw [plainFrom_gap (.inl hg)]
      exact hrest _ _
    · rw [Bool.not_eq_true] at hg hb
      rw [plainFrom_wide (h c List.mem_cons_self) hg hb]
      obtain ⟨text, isBroken, last, hread, hlast, htext⟩ :=
        hrest {} (c :: (gap.folded.reverse ++ done))
      exact ⟨text, isBroken, last, hread, hlast, fun _ => htext (List.cons_ne_nil _ _)⟩

end

/-! ## Tokens -/

namespace Lexer

variable {l : Lexer}

/-- A possible key that need not turn out to be one. -/
def IsOptional (key : Option KeyStart) : Prop := ∀ k, key = some k → k.isRequired = false

theorem isOptional_none : IsOptional none := by
  rintro _ ⟨⟩

theorem exists_freshKey? {key : Option KeyStart} (h : IsOptional key) (g : Glyph) :
    ∃ fresh, IsOptional fresh ∧ freshKey? g key = some fresh := by
  cases key with
  | none => exact ⟨none, h, rfl⟩
  | some k =>
    rw [freshKey?]
    split
    · exact ⟨none, isOptional_none, by rw [h k rfl, if_neg Bool.false_ne_true]⟩
    · exact ⟨some k, h, rfl⟩

/-- The lexer stands outside all collections, and no key is outstanding. -/
structure IsTop (l : Lexer) : Prop where
  indents : l.outerIndents = []
  keyStarts : l.outerKeyStarts = []
  key : IsOptional l.keyStart

namespace IsTop

theorem start (s : Source) : IsTop { source := s } := ⟨rfl, rfl, isOptional_none⟩

theorem inFlow (h : l.IsTop) : l.inFlow = false := by
  rw [Lexer.inFlow, h.keyStarts]
  rfl

theorem closeBlocks (h : l.IsTop) (column : Int) : l.closeBlocks column = l := by
  rw [Lexer.closeBlocks, h.inFlow, if_neg Bool.false_ne_true, h.indents, closeBlocksFrom]

theorem dropKey? (h : l.IsTop) : ∃ key, l.dropKey? = some { l with keyStart := key } := by
  rw [Lexer.dropKey?]
  split
  · next k hk => exact ⟨none, by rw [h.key k hk, if_neg Bool.false_ne_true]⟩
  · exact ⟨l.keyStart, rfl⟩

theorem finish? (h : l.IsTop) : l.finish? = some l.tokens := by
  obtain ⟨key, hkey⟩ := h.dropKey?
  rw [Lexer.finish?, h.closeBlocks, hkey]
  rfl

/-- The next token may turn out to be a key, but need not. -/
theorem saveKey? (h : l.IsTop) (hindent : l.indent = -1) :
    ∃ key, IsOptional key ∧ l.saveKey? = some { l with keyStart := key } := by
  rw [Lexer.saveKey?]
  split
  · next g s hallows hsource =>
    obtain ⟨key, hkey⟩ := h.dropKey?
    refine ⟨some (keyAt { l with keyStart := key } g), ?_, by rw [hkey]; rfl⟩
    rintro _ ⟨⟩
    have hne : ((-1 : Int) == (g.column : Int)) = false := beq_eq_false_iff_ne.2 (by omega)
    simp [keyAt, hindent, hne]
  · exact ⟨l.keyStart, h.key, rfl⟩

theorem dropStaleKeys? (h : l.IsTop) :
    ∃ key, IsOptional key ∧ l.dropStaleKeys? = some { l with keyStart := key } := by
  rw [Lexer.dropStaleKeys?]
  split
  · exact ⟨l.keyStart, h.key, rfl⟩
  · next g s hsource =>
    obtain ⟨key, hkey, hfresh⟩ := exists_freshKey? h.key g
    refine ⟨key, hkey, ?_⟩
    simp [hfresh, h.keyStarts]

/-- Before the next token no collection ends. -/
theorem settle? (h : l.IsTop) {allowsKey : Bool} {source : Source}
    (hskip : skipToToken false l.allowsKey false l.source = (allowsKey, source)) :
    ∃ key, IsOptional key ∧ l.settle? = some { l with allowsKey, source, keyStart := key } := by
  have hnext : l.toNextToken = { l with allowsKey, source } := by
    rw [toNextToken, h.inFlow, hskip]
  have htop : IsTop { l with allowsKey, source } := ⟨h.indents, h.keyStarts, h.key⟩
  obtain ⟨key, hkey, hdrop⟩ := htop.dropStaleKeys?
  have htop' : IsTop { l with allowsKey, source, keyStart := key } := ⟨h.indents, h.keyStarts, hkey⟩
  refine ⟨key, hkey, ?_⟩
  rw [Lexer.settle?, hnext, hdrop]
  exact congrArg some (htop'.closeBlocks _)

/-- If nothing is left but the end, the tokens are those so far. -/
theorem run?_end (h : l.IsTop) {allowsKey : Bool} {last : Glyph}
    (hskip : skipToToken false l.allowsKey false l.source = (allowsKey, [last]))
    (hlast : isEnd last.char = true) (fuel : Nat) : run? (fuel + 1) l = some l.tokens := by
  obtain ⟨key, hkey, hsettle⟩ := h.settle? hskip
  have htop : IsTop { l with allowsKey, source := [last], keyStart := key } :=
    ⟨h.indents, h.keyStarts, hkey⟩
  rw [run?, hsettle]
  dsimp only
  rw [if_pos (show isEnd (peek [last] 0) = true from hlast), htop.finish?]

end IsTop

/-- White space starts a plain scalar or no token at all. -/
theorem token?_of_isBlank (h : isBlank (peek l.source 0) = true) : l.token? =
    if startsPlain l.inFlow (peek l.source 0) (peek l.source 1) then l.plainScalar? else none := by
  have hmarker : ∀ x, isBlank x = false → isMarker x l.source = false := by
    intro x hx
    simp [isMarker, beq_eq_false_of_isBlank h x hx]
  rw [token?]
  simp (disch := decide) only [hmarker, beq_eq_false_of_isBlank h, Bool.and_false, Bool.false_and,
    Bool.false_eq_true, if_false]

/-- A tab starts no token. -/
theorem token?_tab (h : peek l.source 0 = '\t') : l.token? = none := by
  rw [token?_of_isBlank (by rw [h]; rfl), h]
  exact if_neg (by simp [startsPlain, endsWord, isGapChar])

section

variable {c : Char} {cs : List Char} {offset line column : Nat}
  (hblank : ∀ a ∈ c :: cs, isBlank a = true) (hp : isPassed c = false)

include hblank hp

/-- White space that is neither passed nor a tab makes a plain scalar of all that is left. -/
theorem IsTop.token?_wide (h : l.IsTop) (hindent : l.indent = -1) (ht : c ≠ '\t')
    (hsource : l.source = locate offset line column (c :: cs)) :
    ∃ text isBroken last key, text ≠ [] ∧ isEnd last.char = true ∧ IsOptional key ∧
      l.token? = some { l with
        source := [last], allowsKey := isBroken, keyStart := key,
        tokens := l.tokens.push (.scalar true (.ofList text)) } := by
  have hc := hblank c List.mem_cons_self
  rw [locate_cons hp] at hsource
  simp only [isPassed, Bool.or_eq_false_iff, beq_eq_false_iff_ne] at hp
  obtain ⟨⟨⟨hspace, -⟩, -⟩, hb⟩ := hp
  have hgap : isGapChar c = false := by simp [isGapChar, hspace, ht]
  have hpeek : peek l.source 0 = c := by rw [hsource]; rfl
  have hstarts : startsPlain l.inFlow c (peek l.source 1) = true := by
    simp [startsPlain, endsWord, endsLine, hgap, hb, isEnd_of_isBlank hc, isIndicator_of_isBlank hc]
  obtain ⟨key, hkey, hsave⟩ := h.saveKey? hindent
  obtain ⟨text, isBroken, last, hread, hlast, htext⟩ :=
    plainFrom_locate (fun a ha => hblank a (List.mem_cons_of_mem _ ha)) (offset + 1) line
      (column + 1) {} [c]
  have hplain : readPlain? (Lexer.inFlow { l with keyStart := key }) (l.indent + 1).toNat l.source =
      some (text, isBroken, [last]) := by
    show readPlain? l.inFlow _ _ = _
    rw [h.inFlow, hindent, hsource, readPlain?]
    exact (plainFrom_wide hc hgap hb {} [] _).trans hread
  refine ⟨text, isBroken, last, key, htext (List.cons_ne_nil _ _), hlast, hkey, ?_⟩
  rw [token?_of_isBlank (hpeek ▸ hc), hpeek, hstarts, if_pos rfl, plainScalar?, hsave,
    Option.bind_eq_bind, Option.bind_some, hplain]
  rfl

/-- White space that is not passed makes a scalar of all that is left, or no token. -/
theorem IsTop.run?_blank (h : l.IsTop) (hindent : l.indent = -1) {allowsKey : Bool}
    (hskip : skipToToken false l.allowsKey false l.source =
      (allowsKey, locate offset line column (c :: cs))) (fuel : Nat) :
    run? (fuel + 2) l = none ∨
      ∃ text, text ≠ [] ∧
        run? (fuel + 2) l = some (l.tokens.push (.scalar true (.ofList text))) := by
  obtain ⟨key, hkey, hsettle⟩ := h.settle? hskip
  have hpeek : peek (locate offset line column (c :: cs)) 0 = c := by
    rw [locate_cons hp]
    rfl
  have hend : ¬isEnd (peek (locate offset line column (c :: cs)) 0) = true := by
    rw [hpeek, isEnd_of_isBlank (hblank c List.mem_cons_self)]
    decide
  rw [run?, hsettle]
  dsimp only
  rw [if_neg hend]
  by_cases ht : c = '\t'
  · left
    rw [token?_tab (hpeek.trans ht)]
  · right
    have htop : IsTop { l with
        allowsKey, source := locate offset line column (c :: cs), keyStart := key } :=
      ⟨h.indents, h.keyStarts, hkey⟩
    obtain ⟨text, isBroken, last, key', htext, hlast, hkey', htoken⟩ :=
      htop.token?_wide hblank hp hindent ht rfl
    have hafter : IsTop { l with
        source := [last], allowsKey := isBroken, keyStart := key',
        tokens := l.tokens.push (.scalar true (.ofList text)) } :=
      ⟨h.indents, h.keyStarts, hkey'⟩
    refine ⟨text, htext, ?_⟩
    rw [htoken]
    exact hafter.run?_end (skipToToken_end hlast isBroken) hlast fuel

end

end Lexer

/-! ## Texts -/

section

variable {cs : List Char}

theorem ofSource?_of_passed (h : ∀ c ∈ cs, isPassed c = true) :
    Token.ofSource? (locate 0 0 0 cs) = some [] := by
  obtain ⟨offset, line, column, hskip⟩ :=
    skipToToken_locate (fun c hc => isBlank_of_isPassed (h c hc)) 0 0 0
  rw [List.dropWhile_eq_nil_iff.2 h] at hskip
  rw [Token.ofSource?, (Lexer.IsTop.start _).run?_end hskip rfl]
  rfl

theorem exists_dropWhile_isPassed (h : ∃ c ∈ cs, isPassed c = false) :
    ∃ c rest, cs.dropWhile isPassed = c :: rest ∧ isPassed c = false := by
  obtain ⟨c, rest, hrest⟩ : ∃ c rest, cs.dropWhile isPassed = c :: rest := by
    refine List.exists_cons_of_ne_nil fun hnil => ?_
    obtain ⟨c, hc, hp⟩ := h
    rw [List.dropWhile_eq_nil_iff.1 hnil c hc] at hp
    cases hp
  have hhead := List.head?_dropWhile_not isPassed cs
  rw [hrest] at hhead
  exact ⟨c, rest, hrest, hhead⟩

/-- White space that is not all passed is no YAML, or a scalar that is not empty. -/
theorem ofSource?_of_not_passed (hblank : ∀ c ∈ cs, isBlank c = true)
    (h : ∃ c ∈ cs, isPassed c = false) : Token.ofSource? (locate 0 0 0 cs) = none ∨
      ∃ text, text ≠ [] ∧
        Token.ofSource? (locate 0 0 0 cs) = some [.scalar true (.ofList text)] := by
  obtain ⟨offset, line, column, hskip⟩ := skipToToken_locate hblank 0 0 0
  obtain ⟨c, rest, hrest, hp⟩ := exists_dropWhile_isPassed h
  have hblank' : ∀ a ∈ c :: rest, isBlank a = true := fun a ha =>
    hblank a ((List.dropWhile_sublist _).mem (hrest ▸ ha))
  rw [hrest] at hskip
  obtain ⟨n, hn⟩ := Nat.exists_eq_succ_of_ne_zero
    (List.length_eq_zero_iff.not.2 (locate_ne_nil 0 0 0 cs))
  rw [Token.ofSource?, hn]
  obtain hnone | ⟨text, htext, hrun⟩ :=
    (Lexer.IsTop.start _).run?_blank hblank' hp rfl hskip n
  · exact .inl (congrArg (Option.map _) hnone)
  · exact .inr ⟨text, htext, congrArg (Option.map _) hrun⟩

end

/-- A scalar alone is a document. -/
theorem ofTokens?_scalar (text : String) : Document.ofTokens? [.scalar true text] =
    some (some (.scalar ⟨none, none⟩ true text)) := by
  have hroot : readDocument? [.scalar true text] = some (.scalar ⟨none, none⟩ true text, []) := by
    rw [readDocument?, if_neg (by simp [startsDirective]), readRoot?, Reader.node?]
    · rfl
    · simp
  rw [Document.ofTokens?, hroot]
  · rfl
  · simp

variable {text : String}

/-- White space that is passed is a text without a document. -/
theorem ofText?_of_passed (h : ∀ c ∈ text.toList, isPassed c = true) :
    Document.ofText? text = some none := by
  have hallowed : text.toList.all isAllowed = true :=
    List.all_eq_true.2 fun c hc => isAllowed_of_isPassed (h c hc)
  rw [Document.ofText?, Source.ofText?]
  rw [if_pos hallowed]
  exact congrArg (· >>= Document.ofTokens?) (ofSource?_of_passed h)

/-- Other white space is no YAML, or a document that is a scalar. -/
theorem ofText?_of_not_passed (hblank : isBlankText text = true)
    (h : ∃ c ∈ text.toList, isPassed c = false) : Document.ofText? text = none ∨
      ∃ scalar, scalar ≠ "" ∧
        Document.ofText? text = some (some (.scalar ⟨none, none⟩ true scalar)) := by
  rw [Document.ofText?, Source.ofText?]
  split
  · obtain hnone | ⟨scalar, hne, htokens⟩ :=
      ofSource?_of_not_passed (List.all_eq_true.1 hblank) h
    · exact .inl (congrArg (· >>= Document.ofTokens?) hnone)
    · refine .inr ⟨.ofList scalar, ?_, ?_⟩
      · intro he
        exact hne (by simpa using congrArg String.toList he)
      · exact (congrArg (· >>= Document.ofTokens?) htokens).trans (ofTokens?_scalar _)
  · exact .inl rfl

end CommandSchema.Yaml
