import CommandSchema.Json.Printer
import CommandSchema.Text.LeadingInteger
import Mathlib.Data.Int.ModEq
import Mathlib.Data.List.TakeWhile

/-!
# Integers in decimal

The integer that a text starts with is read as without bounds, up to the bits that do not fit.

* `takeWhile_octets`: a text starts with the same digits octet by octet and character by character.
* `IntegerStart`, `signedValue`: the parts of a text that starts as an integer, and their value.
* `leadingInt32_of_start`: the value of the parts, in 32 bits.
* `leadingInt32_integerText`: an integer is read back from its decimal form.
* `leadingInt32_congruent`: what is read of any text.
-/

namespace CommandSchema.Text

/-! ## Digits -/

theorem isDigit_iff {c : Char} : c.isDigit = true ↔ 48 ≤ c.toNat ∧ c.toNat ≤ 57 := by
  simp [Char.isDigit, UInt32.le_iff_toNat_le]

/-- A digit is no white space. -/
theorem isBlank_of_isDigit {c : Char} (h : c.isDigit = true) : isBlank c = false := by
  have hc := isDigit_iff.1 h
  simp [isBlank, blankRanges]
  omega

theorem isDigitOctet_iff {b : UInt8} : isDigitOctet b = true ↔ 48 ≤ b.toNat ∧ b.toNat ≤ 57 := by
  rw [isDigitOctet, Bool.and_eq_true, decide_eq_true_iff, decide_eq_true_iff,
    UInt8.le_iff_toNat_le, UInt8.le_iff_toNat_le]
  rfl

/-- No octet of a longer character is taken for a digit. -/
theorem takeWhile_octets (cs : List Char) :
    (octets cs).takeWhile isDigitOctet = (cs.takeWhile Char.isDigit).map Char.toUInt8 := by
  induction cs with
  | nil => rfl
  | cons c cs ih =>
    by_cases h : c.toNat < 128
    · have hd : isDigitOctet c.toUInt8 = c.isDigit := by
        rw [Bool.eq_iff_iff, isDigitOctet_iff, isDigit_iff, toNat_toUInt8 h]
      rw [octets_cons_of_lt h, List.takeWhile_cons, List.takeWhile_cons, hd, ih]
      cases c.isDigit <;> rfl
    · obtain ⟨b, bs, hb, hle⟩ := exists_octets_cons_of_le (Nat.not_lt.1 h) cs
      have hbd : ¬ isDigitOctet b = true := by
        rw [isDigitOctet_iff]
        omega
      have hcd : ¬ c.isDigit = true := by
        rw [isDigit_iff]
        omega
      rw [hb, List.takeWhile_cons_of_neg hbd, List.takeWhile_cons_of_neg hcd]
      rfl

/-- Digits count in 32 bits as they do without bounds, except for the high bits. -/
theorem foldl_digits {cs : List Char} (h : ∀ c ∈ cs, c.isDigit = true) (n : Nat) :
    (cs.map Char.toUInt8).foldl
        (fun (k : Int32) b => k * 10 + .ofNat (b - '0'.toUInt8).toNat) (.ofNat n) =
      .ofNat (Nat.ofDigitChars 10 cs n) := by
  induction cs generalizing n with
  | nil => rw [Nat.ofDigitChars_nil, List.map_nil, List.foldl_nil]
  | cons c cs ih =>
    obtain ⟨hc, hcs⟩ := List.forall_mem_cons.1 h
    obtain ⟨hlow, hhigh⟩ := isDigit_iff.1 hc
    have hdigit : (c.toUInt8 - '0'.toUInt8).toNat = c.toNat - '0'.toNat := by
      have htoNat : c.toUInt8.toNat = c.toNat := toNat_toUInt8 (by omega)
      have hle : '0'.toUInt8 ≤ c.toUInt8 := by
        rw [UInt8.le_iff_toNat_le, htoNat]
        exact hlow
      rw [UInt8.toNat_sub_of_le _ _ hle, htoNat]
      rfl
    have hstep : Int32.ofNat n * 10 + .ofNat (c.toUInt8 - '0'.toUInt8).toNat =
        .ofNat (10 * n + (c.toNat - '0'.toNat)) := by
      rw [hdigit, Int32.ofNat_add, Int32.ofNat_mul, Int32.mul_comm]
      rfl
    rw [Nat.ofDigitChars_cons, List.map_cons, List.foldl_cons, hstep]
    exact ih hcs _

/-- The digits that a text starts with are read up to the first character that is none. -/
theorem digitsInt32_append {digits rest : List Char} (hdigits : ∀ c ∈ digits, c.isDigit = true)
    (hrest : ∀ c, rest.head? = some c → c.isDigit = false) :
    digitsInt32 (digits ++ rest) = .ofNat (Nat.ofDigitChars 10 digits 0) := by
  have hnil : rest.takeWhile Char.isDigit = [] := by
    cases rest with
    | nil => rfl
    | cons c rest => exact List.takeWhile_cons_of_neg (by simp [hrest c rfl])
  rw [digitsInt32, takeWhile_octets, List.takeWhile_append_of_pos hdigits, hnil, List.append_nil]
  exact foldl_digits hdigits 0

/-! ## The parts of a text -/

/-- A text starts as an integer: with white space, at most one sign, and digits. What follows is no
part of the integer, since none of the parts can be longer. -/
structure IntegerStart (cs blanks sign digits rest : List Char) : Prop where
  text : cs = blanks ++ (sign ++ (digits ++ rest))
  blank : ∀ c ∈ blanks, isBlank c = true
  no_blank : ∀ c, (sign ++ (digits ++ rest)).head? = some c → isBlank c = false
  one_sign : sign = [] ∨ sign = ['+'] ∨ sign = ['-']
  no_sign : sign = [] → ∀ c, (digits ++ rest).head? = some c → c ≠ '+' ∧ c ≠ '-'
  digit : ∀ c ∈ digits, c.isDigit = true
  no_digit : ∀ c, rest.head? = some c → c.isDigit = false

/-- The value of digits after a sign. No digits count as zero. -/
def signedValue (sign digits : List Char) : Int :=
  if sign = ['-'] then -(Nat.ofDigitChars 10 digits 0 : Int) else Nat.ofDigitChars 10 digits 0

/-- What is left of a text without the characters of a kind starts with none of them. -/
private theorem of_head?_dropWhile {p : Char → Bool} {cs : List Char} :
    ∀ c, (cs.dropWhile p).head? = some c → p c = false := by
  intro c h
  have hp := List.head?_dropWhile_not p cs
  rw [h] at hp
  simpa using hp

/-- Every text starts as an integer, if only with none of its parts. -/
theorem exists_integerStart (cs : List Char) :
    ∃ blanks sign digits rest, IntegerStart cs blanks sign digits rest := by
  have hblank : ∀ c ∈ cs.takeWhile isBlank, isBlank c = true := fun _ => List.mem_takeWhile_imp
  have hno : ∀ c, (cs.dropWhile isBlank).head? = some c → isBlank c = false := of_head?_dropWhile
  have htext : cs = cs.takeWhile isBlank ++ cs.dropWhile isBlank :=
    List.takeWhile_append_dropWhile.symm
  obtain ⟨sign, after, hafter, hsign, hnosign⟩ : ∃ sign after, cs.dropWhile isBlank = sign ++ after ∧
      (sign = [] ∨ sign = ['+'] ∨ sign = ['-']) ∧
      (sign = [] → ∀ c, after.head? = some c → c ≠ '+' ∧ c ≠ '-') := by
    cases hcs : cs.dropWhile isBlank with
    | nil => exact ⟨[], [], rfl, .inl rfl, fun _ c hc => by simp at hc⟩
    | cons c after =>
      by_cases hc : c = '+' ∨ c = '-'
      · refine ⟨[c], after, rfl, .inr ?_, by simp⟩
        exact hc.imp (congrArg (· :: [])) (congrArg (· :: []))
      · refine ⟨[], c :: after, rfl, .inl rfl, fun _ d hd => ?_⟩
        obtain rfl : c = d := by simpa using hd
        exact not_or.1 hc
  have hsplit : after = after.takeWhile Char.isDigit ++ after.dropWhile Char.isDigit :=
    List.takeWhile_append_dropWhile.symm
  refine ⟨cs.takeWhile isBlank, sign, after.takeWhile Char.isDigit, after.dropWhile Char.isDigit,
    ?_, hblank, ?_, hsign, ?_, fun _ => List.mem_takeWhile_imp, of_head?_dropWhile⟩
  · rw [← hsplit, ← hafter]
    exact htext
  · rwa [← hsplit, ← hafter]
  · rwa [← hsplit]

theorem leadingInt32?_eq_some (s : String) : leadingInt32? s = some (leadingInt32 s) :=
  (Option.some_get _).symm

/-- A sign is read as the one octet that it is. -/
theorem leadingInt32?_of_minus {s : String} {cs : List Char} (h : trimStart s.toList = '-' :: cs) :
    leadingInt32? s = some (-digitsInt32 cs) := by
  have hhead : (octets ('-' :: cs)).head? = some '-'.toUInt8 := rfl
  simp only [leadingInt32?, h]
  rw [if_pos hhead, fromOctet?_cons_of_lt (by decide)]
  rfl

theorem leadingInt32?_of_plus {s : String} {cs : List Char} (h : trimStart s.toList = '+' :: cs) :
    leadingInt32? s = some (digitsInt32 cs) := by
  have hhead : (octets ('+' :: cs)).head? = some '+'.toUInt8 := rfl
  simp only [leadingInt32?, h]
  rw [if_neg (by rw [hhead]; decide), if_pos hhead, fromOctet?_cons_of_lt (by decide)]
  rfl

/-- Without a sign, the digits count from the start. -/
theorem leadingInt32?_of_no_sign {s : String}
    (h : ∀ c, (trimStart s.toList).head? = some c → c ≠ '+' ∧ c ≠ '-') :
    leadingInt32? s = some (digitsInt32 (trimStart s.toList)) := by
  have hminus : ¬ (octets (trimStart s.toList)).head? = some '-'.toUInt8 := by
    intro hm
    obtain ⟨rest, hrest⟩ := exists_eq_cons_of_head?_octets (by decide) hm
    exact (h '-' (by rw [hrest]; rfl)).2 rfl
  have hplus : ¬ (octets (trimStart s.toList)).head? = some '+'.toUInt8 := by
    intro hp
    obtain ⟨rest, hrest⟩ := exists_eq_cons_of_head?_octets (by decide) hp
    exact (h '+' (by rw [hrest]; rfl)).1 rfl
  simp only [leadingInt32?]
  rw [if_neg hminus, if_neg hplus]

/-- The integer of a text is the value of its parts, in 32 bits. -/
theorem leadingInt32_of_start {s : String} {blanks sign digits rest : List Char}
    (h : IntegerStart s.toList blanks sign digits rest) :
    leadingInt32 s = .ofInt (signedValue sign digits) := by
  have htrim : trimStart s.toList = sign ++ (digits ++ rest) := by
    rw [trimStart, h.text, List.dropWhile_append_of_pos h.blank]
    cases hcs : sign ++ (digits ++ rest) with
    | nil => rfl
    | cons c cs =>
      have hc := h.no_blank c (by rw [hcs]; rfl)
      exact List.dropWhile_cons_of_neg (by simp [hc])
  have hdigits : digitsInt32 (digits ++ rest) = .ofInt (Nat.ofDigitChars 10 digits 0) := by
    rw [digitsInt32_append h.digit h.no_digit, Int32.ofInt_eq_ofNat]
  refine Option.some.inj ((leadingInt32?_eq_some s).symm.trans ?_)
  obtain rfl | rfl | rfl := h.one_sign
  · have hno := h.no_sign rfl
    rw [leadingInt32?_of_no_sign (by rw [htrim]; exact hno), htrim]
    exact congrArg some hdigits
  · exact (leadingInt32?_of_plus htrim).trans (congrArg some hdigits)
  · rw [signedValue, if_pos rfl, Int32.ofInt_neg, ← hdigits]
    exact leadingInt32?_of_minus htrim

/-! ## Decimal forms -/

theorem toList_toString_int (n : Int) : (toString n).toList = Json.integerText n := by
  rw [Int.toString_eq_repr]
  cases n with
  | ofNat n => exact String.toList_ofList
  | negSucc n =>
    show ("-" ++ Nat.repr (n + 1)).toList = _
    rw [String.toList_append]
    exact congrArg ('-' :: ·) String.toList_ofList

/-- The decimal form of an integer starts as that integer, whatever white space stands in front of
it and whatever follows that does not go on with a digit. -/
theorem integerStart_decimal (n : Int) {blanks suffix : List Char}
    (hblanks : ∀ c ∈ blanks, isBlank c = true)
    (hsuffix : ∀ c, suffix.head? = some c → c.isDigit = false) :
    ∃ sign digits, IntegerStart (blanks ++ Json.integerText n ++ suffix) blanks sign digits suffix ∧
      signedValue sign digits = n := by
  have hdigit (m : Nat) : ∀ c ∈ Json.naturalText m, c.isDigit = true :=
    fun c hc => Nat.isDigit_of_mem_toDigits (by decide) (by decide) hc
  have hvalue (m : Nat) : Nat.ofDigitChars 10 (Json.naturalText m) 0 = m :=
    Nat.ofDigitChars_ten_toDigits
  cases n with
  | ofNat m =>
    obtain ⟨d, ds, hds⟩ : ∃ d ds, Json.naturalText m = d :: ds :=
      List.exists_cons_of_ne_nil Nat.toDigits_ne_nil
    have hd : d.isDigit = true := hdigit m d (by simp [hds])
    have hhead : ∀ c, (Json.naturalText m ++ suffix).head? = some c → c.isDigit = true := by
      intro c hc
      obtain rfl : d = c := by simpa [hds] using hc
      exact hd
    refine ⟨[], Json.naturalText m, ⟨by simp [Json.integerText], hblanks, ?_, .inl rfl, ?_,
      hdigit m, hsuffix⟩, by simp [signedValue, hvalue]⟩
    · exact fun c hc => isBlank_of_isDigit (hhead c hc)
    · intro _ c hc
      have hc := hhead c hc
      exact ⟨fun h => by simp [h] at hc, fun h => by simp [h] at hc⟩
  | negSucc m =>
    refine ⟨['-'], Json.naturalText (m + 1), ⟨by simp [Json.integerText], hblanks, ?_,
      .inr (.inr rfl), by simp, hdigit (m + 1), hsuffix⟩, ?_⟩
    · intro c hc
      obtain rfl : '-' = c := by simpa using hc
      decide
    · rw [signedValue, if_pos rfl, hvalue]
      rfl

theorem leadingInt32_integerText (n : Int) :
    leadingInt32 (.ofList (Json.integerText n)) = .ofInt n := by
  obtain ⟨sign, digits, hstart, hvalue⟩ := @integerStart_decimal n [] [] (by simp) (by simp)
  rw [List.nil_append, List.append_nil, ← String.toList_ofList (l := Json.integerText n)] at hstart
  rw [leadingInt32_of_start hstart, hvalue]

/-! ## Any text -/

/-- Equal in 32 bits means equal modulo `2 ^ 32`. -/
theorem eq_ofInt_iff_modEq {n : Int32} {k : Int} : n = .ofInt k ↔ n.toInt ≡ k [ZMOD 2 ^ 32] := by
  constructor
  · rintro rfl
    rw [Int32.toInt_ofInt]
    exact Int.bmod_emod
  · intro h
    refine Int32.toInt_inj.1 ?_
    have hmod : n.toInt % (Int32.size : Int) = k % (Int32.size : Int) := h
    calc n.toInt = (Int32.ofInt n.toInt).toInt := by rw [Int32.ofInt_toInt]
      _ = (n.toInt % Int32.size).bmod Int32.size := by rw [Int32.toInt_ofInt, Int.emod_bmod]
      _ = (k % Int32.size).bmod Int32.size := by rw [hmod]
      _ = (Int32.ofInt k).toInt := by rw [Int32.toInt_ofInt, Int.emod_bmod]

/-- What follows a sign is never cut off inside a character, so every text is read. Of its parts,
the value of the digits after the sign is read modulo `2 ^ 32`. In particular every integer of 32
bits is read back from its decimal form, after any white space and before whatever does not go on
with a digit. -/
theorem leadingInt32_congruent (s : String) :
    leadingInt32? s = some (leadingInt32 s) ∧
    (∃ blanks sign digits rest, IntegerStart s.toList blanks sign digits rest) ∧
    (∀ blanks sign digits rest, IntegerStart s.toList blanks sign digits rest →
      ∀ n : Int32, n = leadingInt32 s ↔ n.toInt ≡ signedValue sign digits [ZMOD 2 ^ 32]) ∧
    ∀ (n : Int32) (blanks suffix : String), (∀ c ∈ blanks.toList, isBlank c = true) →
      (∀ c, suffix.toList.head? = some c → c.isDigit = false) →
      s = blanks ++ toString n.toInt ++ suffix → leadingInt32 s = n := by
  refine ⟨leadingInt32?_eq_some s, exists_integerStart s.toList, ?_, ?_⟩
  · intro blanks sign digits rest h n
    rw [leadingInt32_of_start h, eq_ofInt_iff_modEq]
  · rintro n blanks suffix hblanks hsuffix rfl
    obtain ⟨sign, digits, hstart, hvalue⟩ := integerStart_decimal n.toInt hblanks hsuffix
    rw [← toList_toString_int, ← String.toList_append, ← String.toList_append] at hstart
    rw [leadingInt32_of_start hstart, hvalue, Int32.ofInt_toInt]

/-- One below the least integer of 32 bits, after an ideographic space, is read as the greatest
one; the least one is read as it is. -/
theorem leadingInt32_congruent_least :
    IntegerStart "\u3000-2147483649kg".toList ['\u3000'] ['-'] "2147483649".toList "kg".toList ∧
      leadingInt32 "\u3000-2147483649kg" = 2147483647 ∧
      leadingInt32 ("\u3000" ++ toString Int32.minValue.toInt ++ "kg") = Int32.minValue := by
  have hkg : ∀ c, "kg".toList.head? = some c → c.isDigit = false := by
    rintro _ ⟨⟩
    decide
  have hminus : ∀ c, "-2147483649kg".toList.head? = some c → isBlank c = false := by
    rintro _ ⟨⟩
    decide
  have hstart : IntegerStart "\u3000-2147483649kg".toList ['\u3000'] ['-'] "2147483649".toList
      "kg".toList :=
    ⟨by decide, List.all_eq_true.1 (by decide), hminus, by decide, by simp,
      List.all_eq_true.1 (by decide), hkg⟩
  refine ⟨hstart, ?_, ?_⟩
  · exact (((leadingInt32_congruent _).2.2.1 _ _ _ _ hstart 2147483647).2 (by decide)).symm
  · exact (leadingInt32_congruent _).2.2.2 Int32.minValue "\u3000" "kg"
      (List.all_eq_true.1 (by decide)) hkg rfl

end CommandSchema.Text
