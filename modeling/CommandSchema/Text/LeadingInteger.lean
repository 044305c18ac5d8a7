import CommandSchema.Text.Blank

/-!
# The integer at the start of a text

A text is read as an integer as far as it is one: white space is passed over, a sign and decimal
digits count, and whatever follows is left alone. A text that starts with no digit is zero. From the
sign on, the text is read octet by octet.

* `octets`: a text in UTF-8.
* `fromOctet?`: what a text holds from an octet on.
* `leadingInt32?`: the integer in 32 bits, the high bits dropped. There would be none if what
  follows the sign were cut off inside a character.
* `leadingInt32`: the same; it is always there.
-/

namespace CommandSchema.Text

/-- A text in UTF-8. -/
def octets (cs : List Char) : List UInt8 := cs.flatMap String.utf8EncodeChar

/-- What a text holds from an octet on, if a character starts or the text ends there. -/
def fromOctet? : List Char → Nat → Option (List Char)
  | cs, 0 => some cs
  | [], _ + 1 => none
  | c :: cs, n + 1 => if c.utf8Size ≤ n + 1 then fromOctet? cs (n + 1 - c.utf8Size) else none

/-- The octet is a decimal digit. -/
def isDigitOctet (b : UInt8) : Bool := '0'.toUInt8 ≤ b && b ≤ '9'.toUInt8

/-- The decimal digits that a text starts with, as an integer in 32 bits. -/
def digitsInt32 (cs : List Char) : Int32 :=
  ((octets cs).takeWhile isDigitOctet).foldl (fun n b => n * 10 + .ofNat (b - '0'.toUInt8).toNat) 0

/-- The integer that a text starts with, in 32 bits. A sign takes up one octet. -/
def leadingInt32? (s : String) : Option Int32 :=
  let cs := trimStart s.toList
  if (octets cs).head? = some '-'.toUInt8 then (fromOctet? cs 1).map fun cs => -digitsInt32 cs
  else if (octets cs).head? = some '+'.toUInt8 then (fromOctet? cs 1).map digitsInt32
  else some (digitsInt32 cs)

/-! ## Characters of one octet -/

theorem octets_cons (c : Char) (cs : List Char) :
    octets (c :: cs) = String.utf8EncodeChar c ++ octets cs := rfl

theorem octets_cons_of_lt {c : Char} (h : c.toNat < 128) (cs : List Char) :
    octets (c :: cs) = c.toUInt8 :: octets cs := by
  have hv : c.val.toNat ≤ 127 := Nat.le_of_lt_succ h
  rw [octets_cons, String.utf8EncodeChar, if_pos hv]
  rfl

/-- The first octet of a longer character is none of a shorter one. -/
theorem exists_octets_cons_of_le {c : Char} (h : 128 ≤ c.toNat) (cs : List Char) :
    ∃ b bs, octets (c :: cs) = b :: bs ∧ 128 ≤ b.toNat := by
  have hv : ¬ c.val.toNat ≤ 127 := Nat.not_le.2 h
  rw [octets_cons, String.utf8EncodeChar, if_neg hv]
  split
  · refine ⟨_, _, rfl, ?_⟩
    rw [UInt8.toNat_ofNat']
    omega
  · split
    · refine ⟨_, _, rfl, ?_⟩
      rw [UInt8.toNat_ofNat']
      omega
    · refine ⟨_, _, rfl, ?_⟩
      rw [UInt8.toNat_ofNat']
      omega

theorem toNat_toUInt8 {c : Char} (h : c.toNat < 128) : c.toUInt8.toNat = c.toNat :=
  (UInt32.toNat_toUInt8 c.val).trans (Nat.mod_eq_of_lt (Nat.lt_trans h (by decide)))

/-- The octet of an ASCII character stands first only if that character does. -/
theorem exists_eq_cons_of_head?_octets {a : Char} (ha : a.toNat < 128) {cs : List Char}
    (h : (octets cs).head? = some a.toUInt8) : ∃ rest, cs = a :: rest := by
  cases cs with
  | nil => simp [octets] at h
  | cons c cs =>
    by_cases hc : c.toNat < 128
    · rw [octets_cons_of_lt hc, List.head?_cons, Option.some.injEq] at h
      have hn : c.toNat = a.toNat := by rw [← toNat_toUInt8 hc, ← toNat_toUInt8 ha, h]
      exact ⟨cs, congrArg (· :: cs) (Char.toNat_inj.1 hn)⟩
    · obtain ⟨b, bs, hb, hle⟩ := exists_octets_cons_of_le (Nat.not_lt.1 hc) cs
      rw [hb, List.head?_cons, Option.some.injEq] at h
      rw [h, toNat_toUInt8 ha] at hle
      omega

theorem fromOctet?_cons_of_lt {c : Char} (h : c.toNat < 128) (cs : List Char) :
    fromOctet? (c :: cs) 1 = some cs := by
  have hsize : c.utf8Size = 1 := Char.utf8Size_eq_one_iff.2 (Nat.le_of_lt_succ h)
  rw [fromOctet?, hsize, if_pos (Nat.le_refl 1)]
  cases cs <;> rfl

/-- What follows a sign starts with a character of its own. -/
theorem isSome_leadingInt32? (s : String) : (leadingInt32? s).isSome := by
  simp only [leadingInt32?]
  split
  · next h =>
    obtain ⟨rest, hrest⟩ := exists_eq_cons_of_head?_octets (by decide) h
    rw [hrest, fromOctet?_cons_of_lt (by decide)]
    rfl
  · split
    · next h =>
      obtain ⟨rest, hrest⟩ := exists_eq_cons_of_head?_octets (by decide) h
      rw [hrest, fromOctet?_cons_of_lt (by decide)]
      rfl
    · rfl

/-- The integer that a text starts with, in 32 bits. -/
def leadingInt32 (s : String) : Int32 := (leadingInt32? s).get (isSome_leadingInt32? s)

end CommandSchema.Text
