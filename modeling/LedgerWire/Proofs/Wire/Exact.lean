import LedgerWire.Bytes.Lemmas
import LedgerWire.Wire

set_option autoImplicit false

/-! # What the readers accept

Every reader of a field undoes the writer of that field exactly: it succeeds on the bytes that the
writer would have written for its result, whatever comes behind them, and on no others. Each
statement is an equivalence between a successful read and a split of the bytes in front of the
reader, so a format that is read field by field is understood by rewriting with one equivalence
for each field. -/

namespace LedgerWire.Wire

variable {α β : Type}

/-! ## Steps -/

/-- The second of two reads goes on where the first one stopped. -/
theorem bind_apply (read : Reader α) (next : α → Reader β) (data : Bytes) :
    (read >>= next) data =
      match read data with
      | .ok a mid => next a mid
      | .error e mid => .error e mid := by
  show EStateM.bind read next data = _
  unfold EStateM.bind
  cases read data <;> rfl

theorem bind_eq_ok_iff (read : Reader α) (next : α → Reader β) (data rest : Bytes) (b : β) :
    (read >>= next) data = .ok b rest ↔
      ∃ a mid, read data = .ok a mid ∧ next a mid = .ok b rest := by
  rw [bind_apply]
  cases read data with
  | ok a mid =>
    refine ⟨?_, ?_⟩
    · intro h
      exact ⟨a, mid, rfl, h⟩
    · intro h
      obtain ⟨a', mid', heq, h⟩ := h
      cases heq
      exact h
  | error e mid => simp

theorem pure_eq_ok_iff (a b : α) (data rest : Bytes) :
    (pure a : Reader α) data = .ok b rest ↔ a = b ∧ data = rest := by
  show (EStateM.Result.ok a data : EStateM.Result CodecError Bytes α) = .ok b rest ↔ _
  rw [EStateM.Result.ok.injEq]

theorem throw_ne_ok (e : CodecError) (b : α) (data rest : Bytes) :
    (throw e : Reader α) data ≠ .ok b rest := by
  show (EStateM.Result.error e data : EStateM.Result CodecError Bytes α) ≠ .ok b rest
  simp

theorem take_eq_ok_iff (count : Nat) (data bytes rest : Bytes) :
    take count data = .ok bytes rest ↔ bytes.length = count ∧ data = bytes ++ rest := by
  unfold take
  refine ⟨?_, ?_⟩
  · intro h
    split at h
    · rename_i hle
      cases h
      exact ⟨List.length_take_of_le hle, (List.take_append_drop count data).symm⟩
    · exact absurd h (by simp)
  · intro h
    obtain ⟨hlen, rfl⟩ := h
    rw [if_pos (by simp [← hlen]), List.take_left' hlen, List.drop_left' hlen]

/-! ## Integers and addresses -/

/-- If the numbers of a type are the numbers below 256 to the power `width`, then they are read from
    their digits. -/
theorem readNumber_eq_ok_iff {width : Nat} (ofNat : Nat → α) (toNat : α → Nat)
    (hfits : ∀ a, toNat a < 256 ^ width) (hof : ∀ n a, ofNat n = a ↔ n % 256 ^ width = toNat a)
    (data rest : Bytes) (a : α) :
    (do return ofNat (← take width).toNatLE : Reader α) data = .ok a rest ↔
      data = Bytes.ofNatLE width (toNat a) ++ rest := by
  have hdigits : ∀ bytes : Bytes, bytes.length = width →
      (ofNat bytes.toNatLE = a ↔ bytes = Bytes.ofNatLE width (toNat a)) := by
    intro bytes hlen
    have hlt := Bytes.toNatLE_lt bytes
    rw [hlen] at hlt
    rw [hof, Nat.mod_eq_of_lt hlt, Bytes.toNatLE_eq_iff hlen (hfits a)]
  simp only [bind_eq_ok_iff, pure_eq_ok_iff, take_eq_ok_iff]
  refine ⟨?_, ?_⟩
  · intro h
    obtain ⟨bytes, mid, ⟨hlen, rfl⟩, ha, rfl⟩ := h
    rw [(hdigits bytes hlen).1 ha]
  · intro h
    obtain rfl := h
    have hlen := Bytes.length_ofNatLE width (toNat a)
    exact ⟨_, rest, ⟨hlen, rfl⟩, (hdigits _ hlen).2 rfl, rfl⟩

theorem readU8_eq_ok_iff (data rest : Bytes) (n : UInt8) :
    readU8 data = .ok n rest ↔ data = encodeU8 n ++ rest := by
  have hdigit : Bytes.ofNatLE 1 n.toNat = encodeU8 n := by
    simp [Bytes.ofNatLE, encodeU8]
  rw [← hdigit]
  exact readNumber_eq_ok_iff _ _ UInt8.toNat_lt UInt8.ofNat_eq_iff_mod_eq_toNat data rest n

theorem readU32_eq_ok_iff (data rest : Bytes) (n : UInt32) :
    readU32 data = .ok n rest ↔ data = encodeU32 n ++ rest :=
  readNumber_eq_ok_iff _ _ UInt32.toNat_lt UInt32.ofNat_eq_iff_mod_eq_toNat data rest n

theorem readU64_eq_ok_iff (data rest : Bytes) (n : UInt64) :
    readU64 data = .ok n rest ↔ data = encodeU64 n ++ rest :=
  readNumber_eq_ok_iff _ _ UInt64.toNat_lt UInt64.ofNat_eq_iff_mod_eq_toNat data rest n

theorem readAddress_eq_ok_iff (data rest : Bytes) (address : Address) :
    readAddress data = .ok address rest ↔ data = encodeAddress address ++ rest := by
  unfold readAddress encodeAddress
  refine ⟨?_, ?_⟩
  · intro h
    split at h
    · cases h
      exact (List.take_append_drop 32 data).symm
    · exact absurd h (by simp)
  · intro h
    obtain rfl := h
    have hlen := address.length_bytes
    rw [dif_pos (by simp [hlen])]
    congr 1
    · exact Key.ext_bytes (List.take_left' hlen)
    · exact List.drop_left' hlen

/-! ## Texts -/

/-- A text is read back if its size fits into the 64 bits in front of it. -/
theorem readText_eq_ok_iff (data rest : Bytes) (text : String) :
    readText data = .ok text rest ↔
      text.utf8ByteSize < UInt64.size ∧ data = encodeText text ++ rest := by
  unfold readText encodeText
  refine ⟨?_, ?_⟩
  · intro h
    split at h
    · exact absurd h (by simp)
    · rename_i size mid hsize
      rw [readU64_eq_ok_iff] at hsize
      split at h
      · rename_i hle
        split at h
        · rename_i found hfound
          rw [Bytes.toText?_eq_some_iff] at hfound
          cases h
          -- the size in front is the size of the text, not only a bound for it
          have hlen : text.utf8ByteSize = size.toNat := by
            rw [← Bytes.length_ofText, ← hfound, List.length_take_of_le hle]
          refine ⟨hlen ▸ size.toNat_lt, ?_⟩
          rw [hsize, hlen, ← hfound, List.append_assoc, List.take_append_drop]
          rfl
        · exact absurd h (by simp)
      · exact absurd h (by simp)
  · intro h
    obtain ⟨hlt, rfl⟩ := h
    have hsize : readU64 (Bytes.ofNatLE 8 text.utf8ByteSize ++ Bytes.ofText text ++ rest)
        = .ok (UInt64.ofNat text.utf8ByteSize) (Bytes.ofText text ++ rest) := by
      rw [readU64_eq_ok_iff, encodeU64, UInt64.toNat_ofNat_of_lt' hlt, List.append_assoc]
    have hlen := Bytes.length_ofText text
    rw [hsize]
    simp only [UInt64.toNat_ofNat_of_lt' hlt]
    rw [if_pos (by simp), List.take_left' hlen, List.drop_left' hlen,
      Bytes.toText?_eq_some_iff.2 rfl]

theorem readSeed_eq_ok_iff (data rest : Bytes) (seed : Seed) :
    readSeed data = .ok seed rest ↔ data = encodeSeed seed ++ rest := by
  unfold readSeed encodeSeed
  refine ⟨?_, ?_⟩
  · intro h
    split at h
    · exact absurd h (by simp)
    · rename_i text mid htext
      rw [readText_eq_ok_iff] at htext
      split at h
      · rename_i found hfound
        cases h
        unfold Seed.ofText at hfound
        split at hfound
        · cases hfound
          exact htext.2
        · exact absurd hfound (by simp)
      · exact absurd h (by simp)
  · intro h
    obtain rfl := h
    -- what fits into a seed fits into the count of a text
    have hlt : seed.text.utf8ByteSize < UInt64.size :=
      lt_of_le_of_lt seed.size_le (by decide)
    rw [(readText_eq_ok_iff _ rest seed.text).2 ⟨hlt, rfl⟩]
    simp only [Seed.ofText_text]

/-! ## Lists of addresses -/

theorem readAddresses_eq_ok_iff (count : Nat) (data rest : Bytes) (addresses : List Address) :
    readAddresses count data = .ok addresses rest ↔
      addresses.length = count ∧ data = addresses.flatMap encodeAddress ++ rest := by
  induction count generalizing data addresses with
  | zero =>
    rw [readAddresses, pure_eq_ok_iff, List.length_eq_zero_iff]
    refine ⟨?_, ?_⟩
    · intro h
      obtain ⟨rfl, rfl⟩ := h
      exact ⟨rfl, rfl⟩
    · intro h
      obtain ⟨rfl, rfl⟩ := h
      exact ⟨rfl, rfl⟩
  | succ count ih =>
    rw [readAddresses]
    simp only [bind_eq_ok_iff, pure_eq_ok_iff, readAddress_eq_ok_iff]
    refine ⟨?_, ?_⟩
    · intro h
      obtain ⟨first, mid, rfl, others, mid', hothers, rfl, rfl⟩ := h
      obtain ⟨rfl, rfl⟩ := (ih _ _).1 hothers
      exact ⟨rfl, by simp⟩
    · intro h
      obtain ⟨hlen, rfl⟩ := h
      cases addresses with
      | nil => exact absurd hlen (by simp)
      | cons first others =>
        have hothers := (ih (others.flatMap encodeAddress ++ rest) others).2
          ⟨Nat.succ.inj hlen, rfl⟩
        exact ⟨first, _, by simp, others, rest, hothers, rfl, rfl⟩

/-! ## Running a reader over what was written -/

theorem readU8_encode (n : UInt8) (rest : Bytes) : readU8 (encodeU8 n ++ rest) = .ok n rest :=
  (readU8_eq_ok_iff _ rest n).2 rfl

theorem readU64_encode (n : UInt64) (rest : Bytes) : readU64 (encodeU64 n ++ rest) = .ok n rest :=
  (readU64_eq_ok_iff _ rest n).2 rfl

theorem readAddress_encode (address : Address) (rest : Bytes) :
    readAddress (encodeAddress address ++ rest) = .ok address rest :=
  (readAddress_eq_ok_iff _ rest address).2 rfl

theorem readSeed_encode (seed : Seed) (rest : Bytes) :
    readSeed (encodeSeed seed ++ rest) = .ok seed rest :=
  (readSeed_eq_ok_iff _ rest seed).2 rfl

/-! ## Whole data -/

theorem decode_eq_ok_iff (read : Reader α) (data : Bytes) (a : α) :
    decode read data = .ok a ↔ ∃ rest, read data = .ok a rest := by
  unfold decode
  cases read data with
  | ok b rest => simp
  | error e rest => simp

end LedgerWire.Wire
