import LedgerWire.Proofs.PayloadFormat
import LedgerWire.Proofs.Wire.Truncation

set_option autoImplicit false

/-! # Payloads that are cut off

Both families of payloads are read field by field, so their readers are incremental. This makes the
report that bytes are missing exact. Whatever else comes of some data comes of it with any bytes
behind it, and a report stands until the bytes that it misses are there. In particular a payload
that is cut off anywhere, in the middle of a number, of a seed or of a list of addresses, is
reported as cut off and is never taken for anything else. -/

namespace LedgerWire

open Wire

/-! ## The readers of both families -/

theorem SystemProgram.Tag.isFinal_of_ofCode {code : UInt32} {e : CodecError}
    (h : Tag.ofCode code = .error e) : e.IsFinal := by
  unfold ofCode at h
  split at h
  · exact absurd h (by simp)
  · cases h
    intro needed remaining
    simp

namespace SystemProgram.Payload

theorem readFields_incremental (tag : Tag) : Incremental (readFields tag) :=
  readFields_of_layout (P := fun _ read => Incremental read) pure_incremental
    (fun _ _ => readU64_incremental.bind) (fun _ _ => readAddress_incremental.bind)
    (fun _ _ => readSeed_incremental.bind) tag

theorem read_incremental : Incremental read := by
  refine readU32_incremental.bind ?_
  intro code
  split
  · exact readFields_incremental _
  · rename_i e he
    exact throw_incremental (Tag.isFinal_of_ofCode he)

end SystemProgram.Payload

namespace LookupTable.Payload

theorem readFields_incremental (code : UInt32) : Incremental (readFields code) := by
  unfold readFields
  split
  · exact readU64_incremental.bind fun _ => readU8_incremental.bind fun _ => pure_incremental _
  · exact pure_incremental _
  · exact readU64_incremental.bind fun count =>
      (readAddresses_incremental count.toNat).bind fun _ => pure_incremental _
  · exact pure_incremental _
  · exact pure_incremental _
  · refine throw_incremental ?_
    intro needed remaining
    simp

theorem read_incremental : Incremental read :=
  readU32_incremental.bind readFields_incremental

end LookupTable.Payload

/-! ## Cutting off and going on -/

/-- How a format takes data that is cut off, and data that goes on. -/
structure ReportsTruncation {α : Type} (Valid : α → Prop) (pack : α → Bytes)
    (unpack : Bytes → Except CodecError α) : Prop where
  /-- Unless bytes are missing, the bytes behind make no difference. -/
  unpack_append : ∀ data more,
    (∀ needed remaining, unpack data ≠ .error (.truncatedInput needed remaining)) →
      unpack (data ++ more) = unpack data
  /-- If bytes are reported missing, then fewer are left than are needed. -/
  remaining_lt : ∀ data needed remaining,
    unpack data = .error (.truncatedInput needed remaining) → remaining < needed
  /-- As long as not all that are missing are there, they are counted to those that are left. -/
  truncated_append : ∀ data more needed remaining,
    unpack data = .error (.truncatedInput needed remaining) → more.length < needed - remaining →
      unpack (data ++ more) = .error (.truncatedInput needed (remaining + more.length))
  /-- A packed form that is cut off is reported as such. -/
  truncated_of_prefix : ∀ p data, Valid p → data <+: pack p → data ≠ pack p →
    ∃ needed remaining, unpack data = .error (.truncatedInput needed remaining)

theorem ReportsTruncation.of_incremental {α : Type} {Valid : α → Prop} {pack : α → Bytes}
    {read : Reader α} {unpack : Bytes → Except CodecError α} (hread : Incremental read)
    (hiff : ∀ data rest p, read data = .ok p rest ↔ Valid p ∧ data = pack p ++ rest)
    (hunpack : ∀ data, unpack data = decode read data) : ReportsTruncation Valid pack unpack := by
  have hcanonical := Canonical.of_read_iff hiff hunpack
  have happend : ∀ data more,
      (∀ needed remaining, unpack data ≠ .error (.truncatedInput needed remaining)) →
        unpack (data ++ more) = unpack data := by
    intro data more hfinal
    simp only [hunpack, decode] at hfinal ⊢
    cases hdata : read data with
    | ok a rest => rw [hread.of_ok data a rest hdata more]
    | error e left =>
      rw [hdata] at hfinal
      have he : e.IsFinal := fun needed remaining heq => hfinal needed remaining (by rw [heq])
      rw [(hread.of_error data e left hdata).2 more (he.outlasts _), he.after_eq]
  have htruncated : ∀ data needed remaining,
      unpack data = .error (.truncatedInput needed remaining) →
        ∃ left, read data = .error (.truncatedInput needed remaining) left := by
    intro data needed remaining h
    rw [hunpack, decode] at h
    cases hdata : read data with
    | ok a rest => exact absurd h (by simp [hdata])
    | error e left =>
      rw [hdata] at h
      cases h
      exact ⟨left, rfl⟩
  refine ⟨happend, ?_, ?_, ?_⟩
  · intro data needed remaining h
    obtain ⟨left, hdata⟩ := htruncated data needed remaining h
    exact (hread.of_error data _ left hdata).1
  · intro data more needed remaining h hmore
    obtain ⟨left, hdata⟩ := htruncated data needed remaining h
    have hlasts : (CodecError.truncatedInput needed remaining).Outlasts more.length :=
      Nat.add_lt_of_lt_sub' hmore
    rw [hunpack, decode, (hread.of_error data _ left hdata).2 more hlasts]
    rfl
  · intro p data hp hprefix hne
    by_contra hnone
    simp only [not_exists] at hnone
    obtain ⟨more, hmore⟩ := hprefix
    -- what is made of the part would be made of the whole, but the whole is not in the part
    have hwhole := happend data more hnone
    have hpack := hcanonical.unpack_append p [] hp
    rw [List.append_nil, ← hmore, hwhole, hcanonical.unpack_iff] at hpack
    obtain ⟨-, rest, hrest⟩ := hpack
    have hback : pack p <+: data := ⟨rest, hrest.symm⟩
    exact hne (List.IsPrefix.eq_of_length_le ⟨more, hmore⟩ hback.length_le)

/-- Data that is cut off is reported as such, exactly, and nothing else depends on what follows. -/
theorem payloadFormats_reportTruncation :
    ReportsTruncation SystemProgram.Payload.SeedsFit SystemProgram.Payload.pack
        SystemProgram.Payload.unpack ∧
      ReportsTruncation LookupTable.Payload.Fits LookupTable.Payload.pack
        LookupTable.Payload.unpack := by
  refine ⟨?_, ?_⟩
  · exact .of_incremental SystemProgram.Payload.read_incremental
      SystemProgram.Payload.read_eq_ok_iff_seedsFit (fun _ => rfl)
  · exact .of_incremental LookupTable.Payload.read_incremental LookupTable.Payload.read_eq_ok_iff
      (fun _ => rfl)

end LedgerWire
