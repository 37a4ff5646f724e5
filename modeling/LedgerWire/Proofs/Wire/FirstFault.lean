import LedgerWire.Proofs.Wire.Exact

set_option autoImplicit false

/-! # Which field a read stops at

A payload that cannot be read has a first field that cannot be read, and that field alone decides
what is reported. Here this is told from the bytes only: `Unreadable` says what is wrong with a field
at the front of some bytes, `Holds` which bytes are a field, and `FirstFault` that some whole fields
stand in front of one that is unreadable. Reading one field after another reports exactly this. -/

namespace LedgerWire.Wire

variable {α β : Type}

/-! ## Fields -/

/-- The kinds of fields that stand behind a tag. -/
inductive FieldKind where
  | number
  | address
  | seed
deriving DecidableEq, Repr

/-- The bytes are a whole field of this kind and nothing else. -/
inductive Holds : FieldKind → Bytes → Prop
  | number (n : UInt64) : Holds .number (encodeU64 n)
  | address (address : Address) : Holds .address (encodeAddress address)
  | seed (seed : Seed) : Holds .seed (encodeSeed seed)

/-- What is wrong with a field of this kind at the front of the bytes. The causes exclude each
    other: a text has to be there as a whole before it can be invalid, and has to be valid before it
    can be too long. -/
inductive Unreadable : FieldKind → Bytes → CodecError → Prop
  | numberCut {left : Bytes} (h : left.length < 8) :
      Unreadable .number left (.truncatedInput 8 left.length)
  | addressCut {left : Bytes} (h : left.length < 32) :
      Unreadable .address left (.truncatedInput 32 left.length)
  | seedSizeCut {left : Bytes} (h : left.length < 8) :
      Unreadable .seed left (.truncatedInput 8 left.length)
  | seedCut (size : UInt64) {left : Bytes} (h : left.length < size.toNat) :
      Unreadable .seed (encodeU64 size ++ left) (.truncatedInput size.toNat left.length)
  | seedInvalid (size : UInt64) (bytes left : Bytes) (hlen : bytes.length = size.toNat)
      (h : ∀ text, Bytes.ofText text ≠ bytes) :
      Unreadable .seed (encodeU64 size ++ (bytes ++ left)) .invalidUtf8
  | seedLong (text : String) (left : Bytes) (hfits : text.utf8ByteSize < UInt64.size)
      (h : maxSeedSize < text.utf8ByteSize) :
      Unreadable .seed (encodeText text ++ left) (.seedTooLong text.utf8ByteSize)

/-- The fields of these kinds cannot all be read one after the other, and this is what is wrong with
    the first that cannot. -/
inductive FirstFault : List FieldKind → Bytes → CodecError → Prop
  | here {kind : FieldKind} {kinds : List FieldKind} {data : Bytes} {e : CodecError}
      (h : Unreadable kind data e) : FirstFault (kind :: kinds) data e
  | later {kind : FieldKind} {kinds : List FieldKind} {front rest : Bytes} {e : CodecError}
      (hfront : Holds kind front) (h : FirstFault kinds rest e) :
      FirstFault (kind :: kinds) (front ++ rest) e

/-! ## Failing steps -/

theorem decode_eq_error_iff (read : Reader α) (data : Bytes) (e : CodecError) :
    decode read data = .error e ↔ ∃ left, read data = .error e left := by
  unfold decode
  cases read data with
  | ok a rest => simp
  | error e' left => simp

/-- The second of two reads only fails if the first one does not. -/
theorem decode_bind_eq_error_iff (read : Reader α) (next : α → Reader β) (data : Bytes)
    (e : CodecError) :
    decode (read >>= next) data = .error e ↔
      decode read data = .error e ∨
        ∃ a rest, read data = .ok a rest ∧ decode (next a) rest = .error e := by
  simp only [decode_eq_error_iff, bind_apply]
  cases read data with
  | ok a rest => simp [and_assoc]
  | error e' left => simp

theorem decode_take_eq_error_iff (count : Nat) (data : Bytes) (e : CodecError) :
    decode (take count) data = .error e ↔
      data.length < count ∧ e = .truncatedInput count data.length := by
  unfold decode take
  by_cases hle : count ≤ data.length
  · simp [hle, Nat.not_lt.2 hle]
  · simp [hle, Nat.lt_of_not_le hle, eq_comm]

/-- What is made of the bytes that were taken is no reason to fail. -/
theorem decode_readNumber_eq_error_iff (count : Nat) (ofBytes : Bytes → α) (data : Bytes)
    (e : CodecError) :
    decode (do return ofBytes (← take count) : Reader α) data = .error e ↔
      data.length < count ∧ e = .truncatedInput count data.length := by
  rw [decode_bind_eq_error_iff, decode_take_eq_error_iff, or_iff_left]
  rintro ⟨bytes, rest, -, h⟩
  exact absurd h (by simp [decode, pure, EStateM.pure])

theorem decode_readU32_eq_error_iff (data : Bytes) (e : CodecError) :
    decode readU32 data = .error e ↔ data.length < 4 ∧ e = .truncatedInput 4 data.length :=
  decode_readNumber_eq_error_iff 4 (fun bytes => UInt32.ofNat bytes.toNatLE) data e

theorem decode_readU64_eq_error_iff (data : Bytes) (e : CodecError) :
    decode readU64 data = .error e ↔ data.length < 8 ∧ e = .truncatedInput 8 data.length :=
  decode_readNumber_eq_error_iff 8 (fun bytes => UInt64.ofNat bytes.toNatLE) data e

theorem decode_readAddress_eq_error_iff (data : Bytes) (e : CodecError) :
    decode readAddress data = .error e ↔
      data.length < 32 ∧ e = .truncatedInput 32 data.length := by
  unfold decode readAddress
  by_cases hle : 32 ≤ data.length
  · simp [hle, Nat.not_lt.2 hle]
  · simp [hle, Nat.lt_of_not_le hle, eq_comm]

/-! ## Fields that cannot be read -/

theorem readText_of_cut {size : UInt64} {left : Bytes} (h : left.length < size.toNat) :
    readText (encodeU64 size ++ left) =
      .error (.truncatedInput size.toNat left.length) (encodeU64 size ++ left) := by
  rw [readText, readU64_encode]
  simp only [if_neg (Nat.not_le_of_lt h)]

theorem readText_of_invalid {size : UInt64} {bytes : Bytes} (hlen : bytes.length = size.toNat)
    (h : Bytes.toText? bytes = none) (left : Bytes) :
    readText (encodeU64 size ++ (bytes ++ left)) =
      .error .invalidUtf8 (encodeU64 size ++ (bytes ++ left)) := by
  have hle : size.toNat ≤ (bytes ++ left).length := by simp [hlen]
  rw [readText, readU64_encode]
  simp only [if_pos hle, List.take_left' hlen, h]

theorem readText_of_valid {size : UInt64} {bytes : Bytes} {text : String}
    (hlen : bytes.length = size.toNat) (h : Bytes.toText? bytes = some text) (left : Bytes) :
    readText (encodeU64 size ++ (bytes ++ left)) = .ok text left := by
  have hle : size.toNat ≤ (bytes ++ left).length := by simp [hlen]
  rw [readText, readU64_encode]
  simp only [if_pos hle, List.take_left' hlen, List.drop_left' hlen, h]

/-- A text that is not read is cut off in its size, cut off behind it, or invalid. -/
theorem unreadable_of_readText {data left : Bytes} {e : CodecError}
    (h : readText data = .error e left) : Unreadable .seed data e := by
  cases hsize : readU64 data with
  | error e' left' =>
    have hcut := (decode_eq_error_iff _ _ _).2 ⟨left', hsize⟩
    obtain ⟨hlt, rfl⟩ := (decode_readU64_eq_error_iff _ _).1 hcut
    rw [readText, hsize] at h
    cases h
    exact .seedSizeCut hlt
  | ok size mid =>
    obtain rfl := (readU64_eq_ok_iff _ _ _).1 hsize
    rcases Nat.lt_or_ge mid.length size.toNat with hlt | hle
    · rw [readText_of_cut hlt] at h
      cases h
      exact .seedCut size hlt
    · -- all bytes of the text are there, so they are no text
      have hlen : (mid.take size.toNat).length = size.toNat := List.length_take_of_le hle
      rw [← List.take_append_drop size.toNat mid] at h ⊢
      cases htext : Bytes.toText? (mid.take size.toNat) with
      | none =>
        rw [readText_of_invalid hlen htext] at h
        cases h
        exact .seedInvalid size _ _ hlen ((Bytes.toText?_eq_none_iff _).1 htext)
      | some text =>
        rw [readText_of_valid hlen htext] at h
        cases h

theorem unreadable_of_decode_readSeed {data : Bytes} {e : CodecError}
    (h : decode readSeed data = .error e) : Unreadable .seed data e := by
  obtain ⟨left, h⟩ := (decode_eq_error_iff _ _ _).1 h
  unfold readSeed at h
  cases htext : readText data with
  | error e' left' =>
    rw [htext] at h
    cases h
    exact unreadable_of_readText htext
  | ok text mid =>
    obtain ⟨hfits, rfl⟩ := (readText_eq_ok_iff _ _ _).1 htext
    rw [htext] at h
    simp only [Seed.ofText] at h
    split_ifs at h with hshort
    cases h
    exact .seedLong text left hfits (Nat.lt_of_not_le hshort)

theorem decode_readSeed_of_unreadable {data : Bytes} {e : CodecError}
    (h : Unreadable .seed data e) : decode readSeed data = .error e := by
  refine (decode_eq_error_iff _ _ _).2 ?_
  cases h with
  | seedSizeCut hlt =>
    obtain ⟨left, hsize⟩ := (decode_eq_error_iff _ _ _).1
      ((decode_readU64_eq_error_iff data _).2 ⟨hlt, rfl⟩)
    exact ⟨left, by rw [readSeed, readText, hsize]⟩
  | @seedCut size left hlt => exact ⟨_, by rw [readSeed, readText_of_cut hlt]⟩
  | seedInvalid size bytes left hlen hinvalid =>
    have hnone := (Bytes.toText?_eq_none_iff bytes).2 hinvalid
    exact ⟨_, by rw [readSeed, readText_of_invalid hlen hnone]⟩
  | seedLong text left hfits hlong =>
    refine ⟨left, ?_⟩
    rw [readSeed, (readText_eq_ok_iff _ left text).2 ⟨hfits, rfl⟩]
    simp only [Seed.ofText, dif_neg (Nat.not_le_of_lt hlong)]

/-! ## One field after the other -/

/-- A reader reads the fields of a kind: it fails exactly where there is none, and stops behind the
    field where there is one. -/
structure ReadsField (kind : FieldKind) (read : Reader α) : Prop where
  error_iff : ∀ data e, decode read data = .error e ↔ Unreadable kind data e
  holds_of_ok : ∀ data a rest, read data = .ok a rest → ∃ front, Holds kind front ∧
    data = front ++ rest
  ok_of_holds : ∀ front rest, Holds kind front → ∃ a, read (front ++ rest) = .ok a rest

theorem readU64_readsField : ReadsField .number readU64 where
  error_iff data e := by
    rw [decode_readU64_eq_error_iff]
    constructor
    · rintro ⟨hlt, rfl⟩
      exact .numberCut hlt
    · intro h
      cases h with
      | numberCut hlt => exact ⟨hlt, rfl⟩
  holds_of_ok data n rest h := ⟨_, .number n, (readU64_eq_ok_iff data rest n).1 h⟩
  ok_of_holds front rest h := by
    cases h with
    | number n => exact ⟨n, readU64_encode n rest⟩

theorem readAddress_readsField : ReadsField .address readAddress where
  error_iff data e := by
    rw [decode_readAddress_eq_error_iff]
    constructor
    · rintro ⟨hlt, rfl⟩
      exact .addressCut hlt
    · intro h
      cases h with
      | addressCut hlt => exact ⟨hlt, rfl⟩
  holds_of_ok data a rest h := ⟨_, .address a, (readAddress_eq_ok_iff data rest a).1 h⟩
  ok_of_holds front rest h := by
    cases h with
    | address a => exact ⟨a, readAddress_encode a rest⟩

theorem readSeed_readsField : ReadsField .seed readSeed where
  error_iff data e := ⟨unreadable_of_decode_readSeed, decode_readSeed_of_unreadable⟩
  holds_of_ok data seed rest h := ⟨_, .seed seed, (readSeed_eq_ok_iff data rest seed).1 h⟩
  ok_of_holds front rest h := by
    cases h with
    | seed seed => exact ⟨seed, readSeed_encode seed rest⟩

/-- A reader fails exactly at the first unreadable one of some fields. -/
def StopsAtFirstFault (kinds : List FieldKind) (read : Reader α) : Prop :=
  ∀ data e, decode read data = .error e ↔ FirstFault kinds data e

theorem pure_stopsAtFirstFault (a : α) : StopsAtFirstFault [] (pure a : Reader α) := by
  intro data e
  exact iff_of_false (by simp [decode, pure, EStateM.pure]) (by rintro ⟨⟩)

/-- A field in front of the others. What is read from it has no part in how the others fail. -/
theorem ReadsField.bind {kind : FieldKind} {kinds : List FieldKind} {read : Reader α}
    {next : α → Reader β} (h : ReadsField kind read)
    (hnext : ∀ a, StopsAtFirstFault kinds (next a)) :
    StopsAtFirstFault (kind :: kinds) (read >>= next) := by
  intro data e
  rw [decode_bind_eq_error_iff, h.error_iff]
  constructor
  · rintro (hfault | ⟨a, rest, hread, hfault⟩)
    · exact .here hfault
    · obtain ⟨front, hfront, rfl⟩ := h.holds_of_ok _ _ _ hread
      exact .later hfront ((hnext a rest e).1 hfault)
  · intro hfault
    cases hfault with
    | here hfault => exact .inl hfault
    | later hfront hfault =>
      obtain ⟨a, hread⟩ := h.ok_of_holds _ _ hfront
      exact .inr ⟨a, _, hread, (hnext a _ e).2 hfault⟩

end LedgerWire.Wire
