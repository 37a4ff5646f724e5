import LedgerWire.Base64

set_option autoImplicit false

/-! # Reading Base64 text

Base64 is only ever written here. `decode?` is the reader that such text is meant for: it takes four
characters at a time, wants the padding, and refuses bits that no byte fills. It gives back whatever
was written, so the text says everything about the bytes. -/

namespace LedgerWire.Base64

/-- The value of a character of the alphabet. -/
def digitValue? (c : Char) : Option Nat :=
  alphabet.idxOf? c

/-- The last byte, from the two characters in front of the padding. -/
def lastByte? (a b : Char) : Option Bytes :=
  match digitValue? a, digitValue? b with
  | some x, some y => if y % 16 = 0 then some [UInt8.ofNat (x * 4 + y / 16)] else none
  | _, _ => none

/-- The last two bytes, from the three characters in front of the padding. -/
def lastBytes? (a b c : Char) : Option Bytes :=
  match digitValue? a, digitValue? b, digitValue? c with
  | some x, some y, some z =>
    if z % 4 = 0 then
      some [UInt8.ofNat (x * 4 + y / 16), UInt8.ofNat (y % 16 * 16 + z / 4)]
    else none
  | _, _, _ => none

/-- The three bytes of four characters. -/
def group? (a b c d : Char) : Option Bytes :=
  match digitValue? a, digitValue? b, digitValue? c, digitValue? d with
  | some x, some y, some z, some w =>
    some [UInt8.ofNat (x * 4 + y / 16), UInt8.ofNat (y % 16 * 16 + z / 4),
      UInt8.ofNat (z % 4 * 64 + w)]
  | _, _, _, _ => none

/-- The bytes of a text, group by group. -/
def decodeChars? : List Char → Option Bytes
  | [] => some []
  | [a, b, '=', '='] => lastByte? a b
  | [a, b, c, '='] => lastBytes? a b c
  | a :: b :: c :: d :: rest =>
    match group? a b c d, decodeChars? rest with
    | some bytes, some others => some (bytes ++ others)
    | _, _ => none
  | _ => none

/-- The bytes that a Base64 text stands for. -/
def decode? (text : String) : Option Bytes :=
  decodeChars? text.toList

theorem digitValue?_digitChar {d : Nat} (hd : d < 64) : digitValue? (digitChar d) = some d := by
  have hall : ∀ d < 64, digitValue? (digitChar d) = some d := by decide +kernel
  exact hall d hd

theorem digitChar_ne_padding {d : Nat} (hd : d < 64) : digitChar d ≠ '=' := by
  have hall : ∀ d < 64, digitChar d ≠ '=' := by decide +kernel
  exact hall d hd

theorem ofNat_eq_of_eq_toNat {n : Nat} {b : UInt8} (h : n = b.toNat) : UInt8.ofNat n = b := by
  rw [h, UInt8.ofNat_toNat]

/-- Groups of four characters without padding are read one by one. -/
theorem decodeChars?_group (x y z w : Nat) (hw : w < 64) (rest : List Char) :
    decodeChars? (digitChar x :: digitChar y :: digitChar z :: digitChar w :: rest) =
      match group? (digitChar x) (digitChar y) (digitChar z) (digitChar w), decodeChars? rest with
      | some bytes, some others => some (bytes ++ others)
      | _, _ => none := by
  have hpadding := digitChar_ne_padding hw
  rw [decodeChars?]
  · intro _ h _
    exact hpadding h
  · intro h _
    exact hpadding h

theorem decodeChars?_encodeChars (bytes : Bytes) :
    decodeChars? (encodeChars bytes) = some bytes := by
  fun_induction encodeChars bytes with
  | case1 a b c rest n ih =>
    have ha := a.toNat_lt
    have hb := b.toNat_lt
    have hc := c.toNat_lt
    have h1 : n / 262144 < 64 := by omega
    have h2 : n / 4096 % 64 < 64 := by omega
    have h3 : n / 64 % 64 < 64 := by omega
    have h4 : n % 64 < 64 := by omega
    have hgroup : group? (digitChar (n / 262144)) (digitChar (n / 4096 % 64))
        (digitChar (n / 64 % 64)) (digitChar (n % 64)) = some [a, b, c] := by
      unfold group?
      simp only [digitValue?_digitChar, h1, h2, h3, h4]
      rw [ofNat_eq_of_eq_toNat (b := a) (by omega), ofNat_eq_of_eq_toNat (b := b) (by omega),
        ofNat_eq_of_eq_toNat (b := c) (by omega)]
    rw [decodeChars?_group _ _ _ _ h4, hgroup, ih]
    rfl
  | case2 a b n =>
    have ha := a.toNat_lt
    have hb := b.toNat_lt
    have h1 : n / 1024 < 64 := by omega
    have h2 : n / 16 % 64 < 64 := by omega
    have h3 : n % 16 * 4 < 64 := by omega
    -- the third character is none of the padding, so two bytes are left and not one
    have hpadding := digitChar_ne_padding h3
    rw [decodeChars?]
    · unfold lastBytes?
      simp only [digitValue?_digitChar, h1, h2, h3]
      rw [if_pos (by omega), ofNat_eq_of_eq_toNat (b := a) (by omega),
        ofNat_eq_of_eq_toNat (b := b) (by omega)]
    · exact hpadding
  | case3 a =>
    have ha := a.toNat_lt
    have h1 : a.toNat / 4 < 64 := by omega
    have h2 : a.toNat % 4 * 16 < 64 := by omega
    rw [decodeChars?, lastByte?]
    simp only [digitValue?_digitChar, h1, h2]
    rw [if_pos (by omega), ofNat_eq_of_eq_toNat (b := a) (by omega)]
  | case4 => rfl

/-- Whatever was written is read back. -/
theorem decode?_encode (bytes : Bytes) : decode? (encode bytes) = some bytes := by
  rw [decode?, encode, String.toList_ofList, decodeChars?_encodeChars]

end LedgerWire.Base64
