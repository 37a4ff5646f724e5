import LedgerWire.LookupTable.Payload
import LedgerWire.Proofs.Wire.Cursor

set_option autoImplicit false

/-! # Extensions that announce too much

The number of addresses in front of an extension is any 64-bit number, and whoever writes the payload
chooses it. What bounds the read are the bytes that are there: they are cut into pieces of 32 bytes,
and the first piece that is too short ends the read.

That the count costs nothing and overflows nothing is said about the cursor that computes with
words. The program that reads a payload is stated once over its primitives (`Payload.readWith`); with
the primitives that take bytes off the front it is `Payload.read`, with those of the cursor it is the
run that is followed here. -/

namespace LedgerWire.LookupTable.Payload

open Wire

/-! ## Reading addresses that are there, or not -/

/-- With enough bytes the addresses are the pieces of 32 bytes, in their order. -/
theorem readAddresses_of_le {count : Nat} {data : Bytes} (h : 32 * count ≤ data.length) :
    ∃ addresses : List Address,
      addresses.map (·.bytes) = (List.range count).map (fun i => (data.drop (32 * i)).take 32) ∧
        readAddresses count data = .ok addresses (data.drop (32 * count)) := by
  induction count generalizing data with
  | zero => exact ⟨[], rfl, rfl⟩
  | succ count ih =>
    have hfirst : 32 ≤ data.length := by omega
    have hothers : 32 * count ≤ (data.drop 32).length := by
      rw [List.length_drop]
      omega
    obtain ⟨addresses, hpieces, hread⟩ := ih hothers
    refine ⟨⟨data.take 32, by simp [hfirst]⟩ :: addresses, ?_, ?_⟩
    · simp [List.range_succ_eq_map, hpieces, Nat.mul_succ, Nat.add_comm]
    · rw [readAddresses, bind_apply, readAddress, dif_pos hfirst]
      dsimp only
      rw [bind_apply, hread, List.drop_drop, Nat.mul_succ, Nat.add_comm]
      rfl

/-- Without enough bytes the read ends at the rest that is no address. -/
theorem readAddresses_of_lt {count : Nat} {data : Bytes} (h : data.length < 32 * count) :
    readAddresses count data =
      .error (.truncatedInput 32 (data.length % 32)) (data.drop (32 * (data.length / 32))) := by
  induction count generalizing data with
  | zero => exact absurd h (Nat.not_lt_zero _)
  | succ count ih =>
    rw [readAddresses, bind_apply, readAddress]
    by_cases hfirst : 32 ≤ data.length
    · have hlen : (data.drop 32).length = data.length - 32 := List.length_drop
      have hothers : (data.drop 32).length < 32 * count := by omega
      have hpieces : data.length / 32 = (data.length - 32) / 32 + 1 := by omega
      rw [dif_pos hfirst]
      dsimp only
      rw [bind_apply, ih hothers, List.drop_drop, hlen, ← Nat.mod_eq_sub_mod hfirst, hpieces,
        Nat.mul_succ, Nat.add_comm]
    · have hshort : data.length < 32 := Nat.lt_of_not_le hfirst
      rw [dif_neg hfirst, Nat.mod_eq_of_lt hshort, Nat.div_eq_of_lt hshort]
      rfl

/-! ## One program, two runs -/

/-- What the reading of a payload asks for. -/
structure Primitives (m : Type → Type) where
  u8 : m UInt8
  u32 : m UInt32
  u64 : m UInt64
  address : m Address
  /-- Refuses a tag. -/
  unknown : UInt32 → m Payload

/-- The primitives that take bytes off the front. -/
def Primitives.bytes : Primitives Reader where
  u8 := readU8
  u32 := readU32
  u64 := readU64
  address := readAddress
  unknown code := throw (.unknownInstructionTag code)

/-- The primitives of the cursor. -/
def Primitives.words (data : Bytes) : Primitives WordReader where
  u8 := WordReader.readU8 data
  u32 := WordReader.readU32 data
  u64 := WordReader.readU64 data
  address := WordReader.readAddress data
  unknown code := throw (.refused (.unknownInstructionTag code))

section Program

variable {m : Type → Type} [Monad m] (primitives : Primitives m)

/-- As many addresses as asked for. -/
def readAddressesWith : (count : Nat) → m (List Address)
  | 0 => pure []
  | count + 1 => do
    let first ← primitives.address
    let others ← readAddressesWith count
    return first :: others

/-- The fields that belong to a tag. -/
def readFieldsWith (code : UInt32) : m Payload :=
  match code with
  | 0 => return create (← primitives.u64) (← primitives.u8)
  | 1 => return freeze
  | 2 => do
    let count ← primitives.u64
    return extend (← readAddressesWith primitives count.toNat)
  | 3 => return deactivate
  | 4 => return close
  | _ => primitives.unknown code

/-- A tag and the fields that belong to it. -/
def readWith : m Payload := do
  readFieldsWith primitives (← primitives.u32)

end Program

theorem readAddressesWith_bytes (count : Nat) :
    readAddressesWith Primitives.bytes count = readAddresses count := by
  induction count with
  | zero => rfl
  | succ count ih =>
    rw [readAddressesWith, ih]
    rfl

theorem readFieldsWith_bytes (code : UInt32) :
    readFieldsWith Primitives.bytes code = readFields code := by
  unfold readFieldsWith readFields
  simp only [readAddressesWith_bytes]
  rfl

theorem readWith_bytes : readWith Primitives.bytes = read := by
  rw [readWith, funext readFieldsWith_bytes]
  rfl

/-! ## The run of the cursor -/

variable {data : Bytes}

theorem readAddressesWith_follows (count : Nat) :
    Follows data (readAddressesWith (Primitives.words data) count) (readAddresses count) := by
  induction count with
  | zero => exact .pure []
  | succ count ih => exact readAddress_follows.bind fun first => ih.bind fun others => .pure _

theorem readFieldsWith_follows (code : UInt32) :
    Follows data (readFieldsWith (Primitives.words data) code) (readFields code) := by
  rw [← readFieldsWith_bytes]
  unfold readFieldsWith
  split
  · exact readU64_follows.bind fun _ => readU8_follows.bind fun _ => .pure _
  · exact .pure _
  · refine readU64_follows.bind fun count => ?_
    rw [readAddressesWith_bytes]
    exact (readAddressesWith_follows count.toNat).bind fun _ => .pure _
  · exact .pure _
  · exact .pure _
  · exact .throw _

/-- Over any data, of whatever kind the payload is, the run ends inside the data and has the outcome
    of the reader. -/
theorem readWith_words (h : data.length < UInt64.size) :
    ∃ c : Cursor, readWith (Primitives.words data) .start = c.stop (unpack data) ∧
      c.Inside data ∧ Cursor.start.Pays c ∧ c.missed ≤ 1 :=
  (readU32_follows.bind readFieldsWith_follows).exists_stop (Cursor.start_inside h)

/-! ## Extensions -/

/-- The payload of an extension with a count in front of the given bytes, whatever they are. -/
def extension (count : UInt64) (rest : Bytes) : Bytes :=
  encodeU32 2 ++ encodeU64 count ++ rest

theorem length_extension (count : UInt64) (rest : Bytes) :
    (extension count rest).length = 12 + rest.length := by
  simp [extension, encodeU32, encodeU64, Bytes.length_ofNatLE]
  omega

theorem readU32_extension (count : UInt64) (rest : Bytes) :
    readU32 (extension count rest) = .ok 2 (encodeU64 count ++ rest) :=
  (readU32_eq_ok_iff _ _ 2).2 (List.append_assoc _ _ _)

theorem read_extension (count : UInt64) (rest : Bytes) :
    read (extension count rest) =
      (do return extend (← readAddresses count.toNat) : Reader Payload) rest := by
  rw [read, bind_apply, readU32_extension]
  show (do return extend (← readAddresses (← readU64).toNat) : Reader Payload) _ = _
  rw [bind_apply, readU64_encode]

/-- The run of the cursor comes to the addresses without having asked for one. -/
theorem readWith_extension {count : UInt64} {rest : Bytes}
    (h : (extension count rest).length < UInt64.size) :
    ∃ c : Cursor, c.Inside (extension count rest) ∧ c.left (extension count rest) = rest ∧
      c.found = 0 ∧ c.missed = 0 ∧
      readWith (Primitives.words (extension count rest)) .start =
        (do return extend (← readAddressesWith (Primitives.words (extension count rest))
          count.toNat) : WordReader Payload) c := by
  obtain ⟨c, hcode, hinside, hleft, hpays, hmissed⟩ :=
    readU32_follows.exists_ok (Cursor.start_inside h) (readU32_extension count rest)
  have hrest := readU64_encode count rest
  rw [← hleft] at hrest
  obtain ⟨c', hcount, hinside', hleft', hpays', hmissed'⟩ :=
    readU64_follows.exists_ok hinside hrest
  have hoffset : c'.offset.toNat = 12 := by
    have hlen := c'.length_left (extension count rest)
    have hbound := hinside'.offset_le
    rw [hleft'] at hlen
    rw [length_extension] at hlen hbound
    omega
  -- twelve bytes do not pay for an address
  have hfound : c'.found = 0 := by
    have hpaid : 0 + 32 * c'.found ≤ c'.offset.toNat + 32 * 0 := hpays.trans hpays'
    omega
  refine ⟨c', hinside', hleft', hfound, hmissed'.trans hmissed, ?_⟩
  exact (WordReader.bind_eq_of_ok hcode _).trans (WordReader.bind_eq_of_ok hcount _)

/-- An extension is read for any count. If the bytes behind it are enough, then the addresses are its
    pieces of 32 bytes in their order, and if not, then the read is refused for the rest that is no
    address. On a machine that can hold the data, the cursor finds no more addresses than there are
    pieces, whatever the count, and misses at most one. It has the same outcome, so no sum, difference
    or slice on the way is out of range. -/
theorem unpack_extension (count : UInt64) (rest : Bytes) :
    (32 * count.toNat ≤ rest.length →
        ∃ addresses : List Address, unpack (extension count rest) = .ok (extend addresses) ∧
          addresses.map (·.bytes) =
            (List.range count.toNat).map fun i => (rest.drop (32 * i)).take 32) ∧
      (rest.length < 32 * count.toNat →
        unpack (extension count rest) = .error (.truncatedInput 32 (rest.length % 32))) ∧
      ((extension count rest).length < UInt64.size →
        ∃ c : Cursor, c.offset.toNat ≤ (extension count rest).length ∧
          c.found ≤ rest.length / 32 ∧ c.missed ≤ 1 ∧
          readWith (Primitives.words (extension count rest)) .start =
            c.stop (unpack (extension count rest))) := by
  refine ⟨?_, ?_, ?_⟩
  · intro henough
    obtain ⟨addresses, hpieces, hread⟩ := readAddresses_of_le henough
    refine ⟨addresses, ?_, hpieces⟩
    rw [unpack, Wire.decode, read_extension, bind_apply, hread]
    rfl
  · intro hshort
    rw [unpack, Wire.decode, read_extension, bind_apply, readAddresses_of_lt hshort]
  · intro hsize
    obtain ⟨c, hinside, hleft, hfound, hmissed, hrun⟩ := readWith_extension hsize
    have hfollows : Follows (extension count rest)
        (do return extend (← readAddressesWith (Primitives.words (extension count rest))
          count.toNat))
        (do return extend (← readAddresses count.toNat)) :=
      (readAddressesWith_follows count.toNat).bind fun addresses => .pure _
    obtain ⟨c', hstop, hinside', hpays, hmissed'⟩ := hfollows.exists_stop hinside
    have hbound := hinside'.offset_le
    refine ⟨c', hbound, ?_, ?_, ?_⟩
    · have hlen := c.length_left (extension count rest)
      rw [hleft, length_extension] at hlen
      rw [length_extension] at hbound
      have hpaid : c.offset.toNat + 32 * c'.found ≤ c'.offset.toNat + 32 * 0 := hfound ▸ hpays
      omega
    · rw [hmissed] at hmissed'
      exact hmissed'
    · rw [hrun, hstop, hleft, unpack, Wire.decode, Wire.decode, read_extension]

/-- Forty bytes behind the largest count there is, and behind a count that they are enough for. -/
theorem unpack_extension_fortyBytes :
    ((List.replicate 40 (7 : UInt8)).length < 32 * (18446744073709551615 : UInt64).toNat ∧
        unpack (extension 18446744073709551615 (List.replicate 40 7)) =
          .error (.truncatedInput 32 8)) ∧
      ((extension 18446744073709551615 (List.replicate 40 7)).length < UInt64.size ∧
        ∃ c : Cursor, c.found ≤ 1 ∧ c.missed ≤ 1 ∧
          readWith (Primitives.words (extension 18446744073709551615 (List.replicate 40 7))) .start =
            .error (.refused (.truncatedInput 32 8)) c) ∧
      32 * (1 : UInt64).toNat ≤ (List.replicate 40 (7 : UInt8)).length ∧
        ∃ addresses : List Address,
          unpack (extension 1 (List.replicate 40 7)) = .ok (extend addresses) ∧
            addresses.map (·.bytes) = [List.replicate 32 7] := by
  have hshort : (List.replicate 40 (7 : UInt8)).length <
      32 * (18446744073709551615 : UInt64).toNat := by decide
  have hsize : (extension 18446744073709551615 (List.replicate 40 7)).length < UInt64.size := by
    rw [length_extension]
    decide
  have henough : 32 * (1 : UInt64).toNat ≤ (List.replicate 40 (7 : UInt8)).length := by decide
  have hrefused := (unpack_extension 18446744073709551615 (List.replicate 40 7)).2.1 hshort
  obtain ⟨c, -, hfound, hmissed, hrun⟩ :=
    (unpack_extension 18446744073709551615 (List.replicate 40 7)).2.2 hsize
  refine ⟨⟨hshort, hrefused⟩, ⟨hsize, c, hfound, hmissed, ?_⟩, henough, ?_⟩
  · rw [hrun, hrefused]
    rfl
  · exact (unpack_extension 1 (List.replicate 40 7)).1 henough

end LedgerWire.LookupTable.Payload
