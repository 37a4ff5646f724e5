import LedgerWire.LookupTable.Payload
import LedgerWire.Proofs.Wire.Exact

set_option autoImplicit false

/-! # What lookup table payloads are read from

Reading a payload succeeds exactly on its packed form, whatever comes behind it. The addresses that
extend a table stand behind their number, which has to fit into 64 bits: a longer list has a packed
form as well, but its count is cut off and announces another list. -/

namespace LedgerWire.LookupTable.Payload

open Wire

/-- The addresses that a payload carries. -/
def newAddresses : Payload → List Address
  | extend addresses => addresses
  | _ => []

/-- The number of addresses fits into the count in front of them. -/
def Fits (p : Payload) : Prop :=
  p.newAddresses.length < UInt64.size

instance (p : Payload) : Decidable p.Fits :=
  inferInstanceAs (Decidable (p.newAddresses.length < UInt64.size))

theorem readFields_sound (code : UInt32) (data rest : Bytes) (p : Payload)
    (h : readFields code data = .ok p rest) :
    p.Fits ∧ p.code = code ∧ data = p.fields ++ rest := by
  -- all kinds but one carry no addresses
  have hzero : 0 < UInt64.size := by decide
  unfold readFields at h
  split at h
  · simp only [bind_eq_ok_iff, pure_eq_ok_iff, readU64_eq_ok_iff, readU8_eq_ok_iff] at h
    obtain ⟨recentSlot, _, rfl, bump, _, rfl, rfl, rfl⟩ := h
    exact ⟨hzero, rfl, by simp [fields]⟩
  · obtain ⟨rfl, rfl⟩ := (pure_eq_ok_iff _ _ _ _).1 h
    exact ⟨hzero, rfl, rfl⟩
  · simp only [bind_eq_ok_iff, pure_eq_ok_iff, readU64_eq_ok_iff, readAddresses_eq_ok_iff] at h
    obtain ⟨count, _, rfl, addresses, _, ⟨hlen, rfl⟩, rfl, rfl⟩ := h
    refine ⟨?_, rfl, ?_⟩
    · show addresses.length < UInt64.size
      rw [hlen]
      exact count.toNat_lt
    · rw [fields, hlen, List.append_assoc]
      rfl
  · obtain ⟨rfl, rfl⟩ := (pure_eq_ok_iff _ _ _ _).1 h
    exact ⟨hzero, rfl, rfl⟩
  · obtain ⟨rfl, rfl⟩ := (pure_eq_ok_iff _ _ _ _).1 h
    exact ⟨hzero, rfl, rfl⟩
  · exact absurd h (throw_ne_ok _ p data rest)

theorem readFields_complete (p : Payload) (rest : Bytes) (hfits : p.Fits) :
    readFields p.code (p.fields ++ rest) = .ok p rest := by
  cases p with
  | create recentSlot bump =>
    show (do return create (← readU64) (← readU8) : Reader Payload) _ = _
    simp only [fields, List.append_assoc, bind_apply, readU64_encode, readU8_encode]
    rfl
  | freeze => rfl
  | extend addresses =>
    have hlt : addresses.length < UInt64.size := hfits
    have hcount : readU64 ((extend addresses).fields ++ rest)
        = .ok (UInt64.ofNat addresses.length) (addresses.flatMap encodeAddress ++ rest) := by
      rw [readU64_eq_ok_iff, encodeU64, UInt64.toNat_ofNat_of_lt' hlt, fields, List.append_assoc]
    have haddresses : readAddresses (UInt64.ofNat addresses.length).toNat
        (addresses.flatMap encodeAddress ++ rest) = .ok addresses rest := by
      rw [readAddresses_eq_ok_iff, UInt64.toNat_ofNat_of_lt' hlt]
      exact ⟨rfl, rfl⟩
    show (do return extend (← readAddresses (← readU64).toNat) : Reader Payload) _ = _
    simp only [bind_apply, hcount, haddresses]
    rfl
  | deactivate => rfl
  | close => rfl

/-- A payload is read exactly from its packed form. -/
theorem read_eq_ok_iff (data rest : Bytes) (p : Payload) :
    read data = .ok p rest ↔ p.Fits ∧ data = p.pack ++ rest := by
  unfold read pack
  simp only [bind_eq_ok_iff, readU32_eq_ok_iff]
  refine ⟨?_, ?_⟩
  · intro h
    obtain ⟨code, mid, rfl, h⟩ := h
    obtain ⟨hfits, rfl, rfl⟩ := readFields_sound code mid rest p h
    exact ⟨hfits, (List.append_assoc _ _ _).symm⟩
  · intro h
    obtain ⟨hfits, rfl⟩ := h
    exact ⟨p.code, p.fields ++ rest, List.append_assoc _ _ _, readFields_complete p rest hfits⟩

end LedgerWire.LookupTable.Payload
