import LedgerWire.Proofs.KeyText

set_option autoImplicit false

/-! # The spelling of a key

What a key text says is told here without the algorithm that writes it: the text is the number of
the key in base 58, with one zero digit in front for each zero byte in front of the key. Every key
has exactly one such text, and it is the text that is written and the only one that is read. -/

namespace LedgerWire

/-! ## Digits -/

/-- The change of radix gives the only digits that start with as many zeros and stand for the same
    number. -/
theorem Radix.eq_convert_iff {source target : Nat} (htarget : 2 ≤ target) (ds es : List Nat)
    (hds : ∀ d ∈ ds, d < target) :
    ds = convert source target es ↔
      leadingZeros ds = leadingZeros es ∧ value target ds = value source es := by
  constructor
  · rintro rfl
    rw [convert, leadingZeros_replicate_append _ _ (head?_digits_ne_zero htarget _),
      value_replicate_zero_append, value_digits htarget]
    exact ⟨rfl, rfl⟩
  · rintro ⟨hzeros, hvalue⟩
    rw [convert, ← hzeros, ← hvalue, replicate_append_digits_value htarget ds hds]

namespace Base58

/-- A text spells some bytes in positional base 58: its characters are digits, it starts with as
    many zero digits as the bytes start with zero bytes, and it stands for the same number. -/
def Spells (text : String) (bytes : Bytes) : Prop :=
  ∃ ds : List Nat, (∀ d ∈ ds, d < 58) ∧ text.toList = ds.map digitChar ∧
    Radix.leadingZeros ds = Radix.leadingZeros (bytes.map UInt8.toNat) ∧
      Radix.value 58 ds = Radix.value 256 (bytes.map UInt8.toNat)

/-- The text of some bytes is the only one that spells them. -/
theorem encode_eq_iff_spells (text : String) (bytes : Bytes) :
    encode bytes = text ↔ Spells text bytes := by
  constructor
  · rintro rfl
    have hlt : ∀ d ∈ Radix.convert 256 58 (bytes.map UInt8.toNat), d < 58 :=
      Radix.lt_of_mem_convert (by decide) 256 _
    exact ⟨_, hlt, String.toList_ofList, (Radix.eq_convert_iff (by decide) _ _ hlt).1 rfl⟩
  · rintro ⟨ds, hlt, htext, hspelled⟩
    rw [encode, ← (Radix.eq_convert_iff (by decide) ds _ hlt).2 hspelled, ← htext,
      String.ofList_toList]

end Base58

/-! ## Keys -/

/-- Each key of a kind has one text, which spells it, and is read from this text only. -/
structure HasOneText {size : Nat} (ofText : String → Except KeyError (Key size)) : Prop where
  /-- A text is read as a key exactly if it is the text of the key. -/
  ofText_iff : ∀ text key, ofText text = .ok key ↔ key.toText = text
  /-- The text of a key is what spells its bytes. -/
  toText_iff : ∀ text (key : Key size), key.toText = text ↔ Base58.Spells text key.bytes
  /-- No two texts are read as the same key. -/
  text_unique : ∀ text text' key, ofText text = .ok key → ofText text' = .ok key → text = text'
  /-- Different keys have different texts. -/
  toText_injective : ∀ key key' : Key size, key.toText = key'.toText → key = key'

theorem HasOneText.of_iff {size : Nat} {ofText : String → Except KeyError (Key size)}
    (h : ∀ text key, ofText text = .ok key ↔ key.toText = text) : HasOneText ofText where
  ofText_iff := h
  toText_iff text key := Base58.encode_eq_iff_spells text key.bytes
  text_unique text text' key htext htext' := by
    rw [← (h text key).1 htext, ← (h text' key).1 htext']
  toText_injective key key' heq := by
    -- both keys are read from the text of the second one
    have hread := (h key'.toText key).2 heq
    rw [(h key'.toText key').2 rfl] at hread
    exact (Except.ok.inj hread).symm

/-- Addresses and signatures each have one text, and no text of an address is too long to be
    read. -/
theorem keys_have_one_text :
    HasOneText Address.ofText ∧ HasOneText Signature.ofText ∧
      ∀ address : Address, address.toText.length ≤ 44 ∧
        ∀ size, Address.ofText address.toText ≠ .error (.textTooLong size) := by
  refine ⟨.of_iff Address.ofText_eq_ok_iff, .of_iff Signature.ofText_eq_ok_iff, ?_⟩
  intro address
  refine ⟨?_, ?_⟩
  · rw [Key.toText, ← Base58.utf8ByteSize_encode]
    exact address.size_toText_le
  · intro size
    rw [(Address.ofText_eq_ok_iff _ address).2 rfl]
    simp

end LedgerWire
