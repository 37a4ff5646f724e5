import LedgerWire.Proofs.LookupTable.Payload
import LedgerWire.Proofs.SystemProgram.Payload

set_option autoImplicit false

/-! # Payload formats

Both families of payloads have one packed form for each payload and no other: a payload is read
from its packed form, whatever comes behind it, and from nothing else. Everything else follows from
this equivalence. Two payloads never share their packed form, no packed form starts with another
one, and packing a payload that was read gives back the bytes that the reader used up. -/

namespace LedgerWire

open Wire

/-- What makes a format canonical and self-delimiting, for the payloads that are `Valid`. -/
structure Canonical {α : Type} (Valid : α → Prop) (pack : α → Bytes) (read : Reader α)
    (unpack : Bytes → Except CodecError α) : Prop where
  /-- Exactly the valid payloads are read, and each from its packed form. -/
  unpack_iff : ∀ data p, unpack data = .ok p ↔ Valid p ∧ ∃ rest, data = pack p ++ rest
  /-- Trailing bytes make no difference. -/
  unpack_append : ∀ p rest, Valid p → unpack (pack p ++ rest) = .ok p
  /-- Different payloads have different packed forms. -/
  pack_injective : ∀ p q, Valid p → Valid q → pack p = pack q → p = q
  /-- A packed form that starts with a packed form is that one. -/
  pack_prefixFree : ∀ p q, Valid p → Valid q → pack p <+: pack q → pack p = pack q
  /-- What a read used up is the packed form of its result. -/
  pack_of_read : ∀ data p rest, read data = .ok p rest →
    data.take (data.length - rest.length) = pack p

/-- It is enough to know where a read succeeds, and where it stops. -/
theorem Canonical.of_read_iff {α : Type} {Valid : α → Prop} {pack : α → Bytes} {read : Reader α}
    {unpack : Bytes → Except CodecError α}
    (hread : ∀ data rest p, read data = .ok p rest ↔ Valid p ∧ data = pack p ++ rest)
    (hunpack : ∀ data, unpack data = decode read data) : Canonical Valid pack read unpack := by
  have hiff : ∀ data p, unpack data = .ok p ↔ Valid p ∧ ∃ rest, data = pack p ++ rest := by
    intro data p
    rw [hunpack, decode_eq_ok_iff]
    simp only [hread, exists_and_left]
  have happend : ∀ p rest, Valid p → unpack (pack p ++ rest) = .ok p := by
    intro p rest hp
    exact (hiff _ p).2 ⟨hp, rest, rfl⟩
  -- both payloads are read from the longer packed form, so they are the same
  have hfront : ∀ p q, Valid p → Valid q → pack p <+: pack q → p = q := by
    intro p q hp hq h
    obtain ⟨rest, hrest⟩ := h
    have hread_p := happend p rest hp
    have hread_q := happend q [] hq
    rw [List.append_nil, ← hrest, hread_p] at hread_q
    exact Except.ok.inj hread_q
  refine ⟨hiff, happend, ?_, ?_, ?_⟩
  · intro p q hp hq h
    exact hfront p q hp hq ⟨[], by rw [List.append_nil, h]⟩
  · intro p q hp hq h
    rw [hfront p q hp hq h]
  · intro data p rest h
    obtain ⟨-, rfl⟩ := (hread data rest p).1 h
    rw [List.length_append, Nat.add_sub_cancel, List.take_left' rfl]

/-- No seed of the payload is larger than a seed may be. -/
def SystemProgram.Payload.SeedsFit (p : Payload) : Prop :=
  ∀ seed ∈ p.seeds, seed.text.utf8ByteSize ≤ maxSeedSize

/-- The limit is part of every seed, so all payloads keep to it. -/
theorem SystemProgram.Payload.read_eq_ok_iff_seedsFit (data rest : Bytes) (p : Payload) :
    read data = .ok p rest ↔ p.SeedsFit ∧ data = pack p ++ rest := by
  rw [read_eq_ok_iff]
  exact (and_iff_right fun seed _ => seed.size_le).symm

/-- The packed forms of both families are canonical and self-delimiting. -/
theorem payloadFormats_canonical :
    Canonical SystemProgram.Payload.SeedsFit SystemProgram.Payload.pack SystemProgram.Payload.read
        SystemProgram.Payload.unpack ∧
      Canonical LookupTable.Payload.Fits LookupTable.Payload.pack LookupTable.Payload.read
        LookupTable.Payload.unpack := by
  refine ⟨?_, ?_⟩
  · exact Canonical.of_read_iff SystemProgram.Payload.read_eq_ok_iff_seedsFit (fun _ => rfl)
  · exact Canonical.of_read_iff LookupTable.Payload.read_eq_ok_iff (fun _ => rfl)

end LedgerWire
