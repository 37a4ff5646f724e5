import LedgerWire.Proofs.SystemProgram.Decoding
import LedgerWire.Proofs.Wire.FirstFault

set_option autoImplicit false

/-! # Which instructions are refused, and why

An instruction can be wrong in several ways at once, and only one of them is reported. `Refused`
lists what can be wrong in the order in which it is looked for: the program, the tag, the fields of
the payload one after the other, and at last the number of accounts. Each cause is only given where
everything in front of it is in order, so there is one at most, and decoding fails with it and for no
other reason. The addresses and flags of the accounts are never one. -/

namespace LedgerWire.SystemProgram

open Wire

/-! ## Payloads -/

theorem Payload.readFields_stopsAtFirstFault (tag : Tag) :
    StopsAtFirstFault tag.layout (readFields tag) :=
  readFields_of_layout pure_stopsAtFirstFault (fun _ _ => readU64_readsField.bind)
    (fun _ _ => readAddress_readsField.bind) (fun _ _ => readSeed_readsField.bind) tag

theorem Tag.code_lt (tag : Tag) : tag.code.toNat < 13 := by
  cases tag <;> decide

theorem Tag.exists_code_eq {code : UInt32} (h : code.toNat < 13) : ∃ tag : Tag, tag.code = code := by
  have hall : ∀ n < 13, ∃ tag ∈ all, tag.code = UInt32.ofNat n := by decide
  obtain ⟨tag, -, htag⟩ := hall code.toNat h
  exact ⟨tag, htag.trans UInt32.ofNat_toNat⟩

/-- The codes are the numbers below 13. -/
theorem Tag.ofCode_eq_error_iff (code : UInt32) (e : CodecError) :
    ofCode code = .error e ↔ 13 ≤ code.toNat ∧ e = .unknownInstructionTag code := by
  by_cases h : code.toNat < 13
  · obtain ⟨tag, rfl⟩ := exists_code_eq h
    simp [Nat.not_le_of_lt h]
  · have hnone : (all.find? fun tag => tag.code = code) = none := by
      rw [List.find?_eq_none]
      intro tag _ heq
      exact h (of_decide_eq_true heq ▸ tag.code_lt)
    rw [ofCode, hnone]
    constructor
    · intro heq
      cases heq
      exact ⟨Nat.le_of_not_lt h, rfl⟩
    · rintro ⟨-, rfl⟩
      rfl

/-- Data is refused for its tag or for the first bad field behind it. -/
theorem Payload.unpack_eq_error_iff (data : Bytes) (e : CodecError) :
    unpack data = .error e ↔
      (data.length < 4 ∧ e = .truncatedInput 4 data.length) ∨
        ∃ (code : UInt32) (rest : Bytes), data = encodeU32 code ++ rest ∧
          ((13 ≤ code.toNat ∧ e = .unknownInstructionTag code) ∨
            ∃ tag : Tag, tag.code = code ∧ FirstFault tag.layout rest e) := by
  unfold unpack read
  rw [decode_bind_eq_error_iff, decode_readU32_eq_error_iff]
  simp only [readU32_eq_ok_iff]
  refine or_congr_right (exists_congr fun code => exists_congr fun rest => and_congr_right ?_)
  intro _
  cases htag : Tag.ofCode code with
  | ok tag =>
    obtain rfl := (Tag.ofCode_eq_ok_iff code tag).1 htag
    have hfields := readFields_stopsAtFirstFault tag rest e
    constructor
    · intro h
      exact .inr ⟨tag, rfl, hfields.1 h⟩
    · rintro (⟨hle, -⟩ | ⟨tag', hcode, hfault⟩)
      · exact absurd tag.code_lt (Nat.not_lt_of_le hle)
      · obtain rfl := Tag.code_injective hcode
        exact hfields.2 hfault
  | error e' =>
    obtain ⟨hle, rfl⟩ := (Tag.ofCode_eq_error_iff code e').1 htag
    constructor
    · intro h
      cases h
      exact .inl ⟨hle, rfl⟩
    · rintro (⟨-, rfl⟩ | ⟨tag, rfl, -⟩)
      · rfl
      · exact absurd tag.code_lt (Nat.not_lt_of_le hle)

/-! ## Accounts -/

/-- Only a list that is too short cannot be joined. -/
theorem Operation.join?_eq_none_iff (payload : Payload) (keys : List Address) :
    join? payload keys = none ↔ keys.length < payload.tag.accountCount := by
  -- the longest layout has five places, so five steps into the list decide about every kind
  rcases keys with _ | ⟨a, _ | ⟨b, _ | ⟨c, _ | ⟨d, _ | ⟨e, rest⟩⟩⟩⟩⟩ <;>
    cases payload <;> simp [join?, Payload.tag, Tag.accountCount]

/-! ## Instructions -/

/-- What is wrong with an instruction, if everything that is looked at before is in order. -/
inductive Refused (ix : Instruction) : CodecError → Prop
  /-- It is meant for another program, whatever its data and accounts are. -/
  | program (h : ix.program ≠ Address.systemProgram) :
      Refused ix (.wrongProgram Address.systemProgram ix.program)
  /-- The tag is cut off. -/
  | tagCut (hprogram : ix.program = Address.systemProgram) (h : ix.data.length < 4) :
      Refused ix (.truncatedInput 4 ix.data.length)
  /-- No kind has this code, whatever follows it. -/
  | tag (hprogram : ix.program = Address.systemProgram) (code : UInt32) (rest : Bytes)
      (hdata : ix.data = encodeU32 code ++ rest) (h : 13 ≤ code.toNat) :
      Refused ix (.unknownInstructionTag code)
  /-- A field behind the tag cannot be read, and no field in front of it is at fault. -/
  | field (hprogram : ix.program = Address.systemProgram) (kind : Tag) (rest : Bytes)
      (hdata : ix.data = encodeU32 kind.code ++ rest) (e : CodecError)
      (h : FirstFault kind.layout rest e) : Refused ix e
  /-- All of the payload is there, but its layout has more accounts. -/
  | accounts (hprogram : ix.program = Address.systemProgram) (payload : Payload)
      (hdata : payload.pack <+: ix.data)
      (h : ix.accounts.length < payload.tag.accountCount) :
      Refused ix (.notEnoughAccounts payload.tag.accountCount ix.accounts.length)

theorem checkProgram_eq_error_iff (ix : Instruction) (expected : Address) (e : CodecError) :
    ix.checkProgram expected = .error e ↔
      ix.program ≠ expected ∧ e = .wrongProgram expected ix.program := by
  unfold Instruction.checkProgram
  split_ifs with hprogram
  · simp [hprogram]
  · simp [hprogram, eq_comm]

theorem decode_eq_error_iff_refused (ix : Instruction) (e : CodecError) :
    decode ix = .error e ↔ Refused ix e := by
  unfold decode
  simp only [except_bind_eq_error_iff, checkProgram_eq_error_iff, checkProgram_eq_ok_iff,
    Payload.unpack_eq_error_iff, unpack_eq_ok_iff]
  constructor
  · rintro (⟨hprogram, rfl⟩ | ⟨-, hprogram, (⟨hcut, rfl⟩ |
      ⟨code, rest, hdata, ⟨hcode, rfl⟩ | ⟨kind, rfl, hfault⟩⟩) | ⟨payload, hdata, h⟩⟩)
    · exact .program hprogram
    · exact .tagCut hprogram hcut
    · exact .tag hprogram code rest hdata hcode
    · exact .field hprogram kind rest hdata e hfault
    · split at h
      · exact absurd h (by simp)
      · rename_i hjoin
        cases h
        rw [Operation.join?_eq_none_iff, ix.length_keys] at hjoin
        exact .accounts hprogram payload hdata hjoin
  · intro h
    cases h with
    | program hprogram => exact .inl ⟨hprogram, rfl⟩
    | tagCut hprogram hcut => exact .inr ⟨(), hprogram, .inl (.inl ⟨hcut, rfl⟩)⟩
    | tag hprogram code rest hdata hcode =>
      exact .inr ⟨(), hprogram, .inl (.inr ⟨code, rest, hdata, .inl ⟨hcode, rfl⟩⟩)⟩
    | field hprogram kind rest hdata e hfault =>
      exact .inr ⟨(), hprogram, .inl (.inr ⟨kind.code, rest, hdata, .inr ⟨kind, rfl, hfault⟩⟩)⟩
    | accounts hprogram payload hdata hfew =>
      rw [← ix.length_keys] at hfew
      refine .inr ⟨(), hprogram, .inr ⟨payload, hdata, ?_⟩⟩
      rw [(Operation.join?_eq_none_iff payload ix.keys).2 hfew]

/-- What is wrong only depends on the program, the data and the number of accounts. -/
theorem Refused.congr {ix ix' : Instruction} {e : CodecError} (h : Refused ix e)
    (hsame : ix'.program = ix.program) (hbytes : ix'.data = ix.data)
    (hlen : ix'.accounts.length = ix.accounts.length) : Refused ix' e := by
  cases h with
  | program hprogram =>
    rw [← hsame] at hprogram ⊢
    exact .program hprogram
  | tagCut hprogram hcut =>
    rw [← hbytes] at hcut ⊢
    exact .tagCut (hsame.trans hprogram) hcut
  | tag hprogram code rest hdata hcode =>
    exact .tag (hsame.trans hprogram) code rest (hbytes.trans hdata) hcode
  | field hprogram kind rest hdata e hfault =>
    exact .field (hsame.trans hprogram) kind rest (hbytes.trans hdata) e hfault
  | accounts hprogram payload hdata hfew =>
    rw [← hbytes] at hdata
    rw [← hlen] at hfew ⊢
    exact .accounts (hsame.trans hprogram) payload hdata hfew

/-- Decoding fails with what is wrong first, and for no other reason. What the addresses and flags of
    the accounts are has no part in it. -/
theorem decode_refuses :
    (∀ (ix : Instruction) (e : CodecError), decode ix = .error e ↔ Refused ix e) ∧
      ∀ (ix : Instruction) (change : Nat → AccountMeta → AccountMeta) (e : CodecError),
        decode { ix with accounts := ix.accounts.mapIdx change } = .error e ↔
          decode ix = .error e := by
  refine ⟨decode_eq_error_iff_refused, ?_⟩
  intro ix change e
  have hlen : (ix.accounts.mapIdx change).length = ix.accounts.length := List.length_mapIdx
  rw [decode_eq_error_iff_refused, decode_eq_error_iff_refused]
  constructor
  · intro h
    exact h.congr rfl rfl hlen.symm
  · intro h
    exact h.congr rfl rfl hlen

end LedgerWire.SystemProgram
