import LedgerWire.Bytes.Lemmas
import LedgerWire.Error
import LedgerWire.Proofs.Radix

set_option autoImplicit false

/-! # Key texts

Base58 text and byte strings are in one-to-one correspondence: a text is read exactly if it is what
the bytes that are read would be written as. For keys this includes the limit on the text of an
address, which no address exceeds. -/

namespace LedgerWire

namespace Base58

/-! ## Digits -/

theorem digitValue?_eq_some_iff (c : Char) (d : Nat) :
    digitValue? c = some d ↔ d < 58 ∧ digitChar d = c := by
  -- no character stands twice in the alphabet
  have hback : ∀ d < 58, digitValue? (digitChar d) = some d := by decide
  refine ⟨?_, ?_⟩
  · intro h
    obtain ⟨hlt, hc, -⟩ := List.idxOf?_eq_some_iff.1 h
    refine ⟨hlt, ?_⟩
    rw [digitChar, List.getD_eq_getElem?_getD, List.getElem?_eq_getElem hlt, Option.getD_some, hc]
  · intro h
    obtain ⟨hlt, rfl⟩ := h
    exact hback d hlt

theorem readDigits_eq_ok_iff (index : Nat) (cs : List Char) (ds : List Nat) :
    readDigits index cs = .ok ds ↔ (∀ d ∈ ds, d < 58) ∧ cs = ds.map digitChar := by
  induction cs generalizing index ds with
  | nil =>
    rw [readDigits, Except.ok.injEq, eq_comm]
    refine ⟨?_, ?_⟩
    · intro h
      obtain rfl := h
      exact ⟨by simp, rfl⟩
    · intro h
      obtain ⟨-, h⟩ := h
      exact List.map_eq_nil_iff.1 h.symm
  | cons c cs ih =>
    rw [readDigits]
    refine ⟨?_, ?_⟩
    · intro h
      split at h
      · rename_i d hd
        -- the index is only there for the report of a fault, so any will do
        obtain ⟨hlt, rfl⟩ := (digitValue?_eq_some_iff c d).1 hd
        obtain ⟨others, hothers, rfl⟩ := (except_map_eq_ok_iff _ _ _).1 h
        obtain ⟨hall, rfl⟩ := (ih (index + 1) others).1 hothers
        exact ⟨by simpa using ⟨hlt, hall⟩, rfl⟩
      · exact absurd h (by simp)
    · intro h
      obtain ⟨hall, hcs⟩ := h
      cases ds with
      | nil => exact absurd hcs (by simp)
      | cons d ds =>
        obtain ⟨hlt, hall⟩ := List.forall_mem_cons.1 hall
        rw [List.map_cons, List.cons.injEq] at hcs
        obtain ⟨rfl, rfl⟩ := hcs
        rw [(digitValue?_eq_some_iff _ d).2 ⟨hlt, rfl⟩, (ih (index + 1) ds).2 ⟨hall, rfl⟩]
        rfl

/-! ## Byte strings -/

theorem lt_of_mem_map_toNat (bytes : Bytes) : ∀ d ∈ bytes.map UInt8.toNat, d < 256 := by
  intro d hd
  obtain ⟨b, -, rfl⟩ := List.mem_map.1 hd
  exact b.toNat_lt

theorem map_ofNat_map_toNat (bytes : Bytes) : (bytes.map UInt8.toNat).map UInt8.ofNat = bytes := by
  induction bytes with
  | nil => rfl
  | cons b bs ih => rw [List.map_cons, List.map_cons, ih, UInt8.ofNat_toNat]

theorem map_toNat_map_ofNat (ds : List Nat) (h : ∀ d ∈ ds, d < 256) :
    (ds.map UInt8.ofNat).map UInt8.toNat = ds := by
  induction ds with
  | nil => rfl
  | cons d ds ih =>
    obtain ⟨hd, hds⟩ := List.forall_mem_cons.1 h
    rw [List.map_cons, List.map_cons, ih hds, UInt8.toNat_ofNat_of_lt' hd]

theorem length_encode (bytes : Bytes) :
    (encode bytes).length = (Radix.convert 256 58 (bytes.map UInt8.toNat)).length := by
  rw [encode, String.length_ofList, List.length_map]

/-- The digits are ASCII, so a text has as many bytes as characters. -/
theorem utf8ByteSize_encode (bytes : Bytes) :
    (encode bytes).utf8ByteSize = (encode bytes).length := by
  have hascii : ∀ d < 58, (digitChar d).utf8Size = 1 := by decide
  rw [encode, String.length_ofList]
  apply Bytes.utf8ByteSize_ofList_of_ascii
  intro c hc
  obtain ⟨d, hd, rfl⟩ := List.mem_map.1 hc
  exact hascii d (Radix.lt_of_mem_convert (by decide) 256 _ d hd)

/-- A text stands for some bytes exactly if it is the text of them. -/
theorem decode_eq_ok_iff (text : String) (bytes : Bytes) :
    decode text = .ok bytes ↔ encode bytes = text := by
  unfold decode encode
  rw [except_map_eq_ok_iff]
  refine ⟨?_, ?_⟩
  · intro h
    obtain ⟨ds, hds, rfl⟩ := h
    obtain ⟨hall, hcs⟩ := (readDigits_eq_ok_iff 0 _ ds).1 hds
    rw [map_toNat_map_ofNat _ (Radix.lt_of_mem_convert (by decide) 58 ds),
      Radix.convert_convert (by decide) (by decide) ds hall, ← hcs, String.ofList_toList]
  · intro h
    obtain rfl := h
    refine ⟨Radix.convert 256 58 (bytes.map UInt8.toNat), ?_, ?_⟩
    · rw [readDigits_eq_ok_iff, String.toList_ofList]
      exact ⟨Radix.lt_of_mem_convert (by decide) 256 _, rfl⟩
    · rw [Radix.convert_convert (by decide) (by decide) _ (lt_of_mem_map_toNat bytes),
        map_ofNat_map_toNat]

end Base58

/-! ## Keys -/

theorem Key.ofBytes?_eq_some_iff {size : Nat} (bytes : Bytes) (key : Key size) :
    Key.ofBytes? bytes = some key ↔ key.bytes = bytes := by
  unfold Key.ofBytes?
  split
  · rename_i hsize
    rw [Option.some.injEq]
    refine ⟨?_, ?_⟩
    · intro h
      obtain rfl := h
      rfl
    · intro h
      obtain rfl := h
      rfl
  · rename_i hsize
    refine iff_of_false (by simp) ?_
    intro h
    obtain rfl := h
    exact hsize key.length_bytes

theorem Address.size_toText_le (address : Address) :
    address.toText.utf8ByteSize ≤ Address.maxTextSize := by
  have hbytes := Base58.lt_of_mem_map_toNat address.bytes
  -- twelve characters more than bytes are enough, as 32 bytes are below the 44th power of 58
  have hlen := Radix.length_convert_le (by decide) (by decide)
    (show ∀ k ≤ 32, 256 ^ k ≤ 58 ^ (k + 12) by decide) _ hbytes (by simp [address.length_bytes])
  rw [Key.toText, Base58.utf8ByteSize_encode, Base58.length_encode]
  simpa [address.length_bytes, Address.maxTextSize] using hlen

theorem Address.ofBytes_eq_ok_iff (bytes : Bytes) (address : Address) :
    Address.ofBytes bytes = .ok address ↔ address.bytes = bytes := by
  rw [← Key.ofBytes?_eq_some_iff, Address.ofBytes]
  split <;> simp [*]

theorem Signature.ofBytes_eq_ok_iff (bytes : Bytes) (signature : Signature) :
    Signature.ofBytes bytes = .ok signature ↔ signature.bytes = bytes := by
  rw [← Key.ofBytes?_eq_some_iff, Signature.ofBytes]
  split <;> simp [*]

/-- A text is read as an address exactly if it is the text of the address. -/
theorem Address.ofText_eq_ok_iff (text : String) (address : Address) :
    Address.ofText text = .ok address ↔ address.toText = text := by
  unfold Address.ofText
  split
  · rename_i hlong
    refine iff_of_false (by simp) ?_
    intro h
    obtain rfl := h
    exact absurd address.size_toText_le (Nat.not_le_of_lt hlong)
  · rw [Key.toText, ← Base58.decode_eq_ok_iff]
    cases Base58.decode text with
    | error cause => simp
    | ok bytes => rw [Except.ok.injEq, Address.ofBytes_eq_ok_iff, eq_comm]

/-- A text is read as a signature exactly if it is the text of the signature. -/
theorem Signature.ofText_eq_ok_iff (text : String) (signature : Signature) :
    Signature.ofText text = .ok signature ↔ signature.toText = text := by
  unfold Signature.ofText
  rw [Key.toText, ← Base58.decode_eq_ok_iff]
  cases Base58.decode text with
  | error cause => simp
  | ok bytes => rw [Except.ok.injEq, Signature.ofBytes_eq_ok_iff, eq_comm]

end LedgerWire
