import LedgerWire.Proofs.SystemProgram.Payload
import LedgerWire.SystemProgram.Operation

set_option autoImplicit false

/-! # Which instructions mean an operation

An instruction is decoded to an operation exactly if it agrees with the layout of that operation in
everything that is looked at: the program, the packed payload at the front of the data, and the
addresses at the places of the account list that say something. Flags, accounts behind the layout,
the places that are the same for every operation and bytes behind the payload are free. -/

namespace LedgerWire.SystemProgram

/-- The places of the account list that decoding passes over: accounts that are the same for every
    operation, and a base that the payload repeats. -/
def Tag.ignoredPlaces : Tag → List Nat
  | .advanceNonceAccount => [1]
  | .withdrawNonceAccount => [2, 3]
  | .initializeNonceAccount => [1, 2]
  | .allocateWithSeed => [1]
  | .assignWithSeed => [1]
  | _ => []

namespace Operation

/-- The addresses of an account list are those of the layout wherever decoding looks at them. -/
def Matches (p : Operation) (keys : List Address) : Prop :=
  p.tag.accountCount ≤ keys.length ∧
    ∀ i < p.tag.accountCount, i ∉ p.tag.ignoredPlaces → keys[i]? = p.toInstruction.key? i

theorem payload_of_join? (payload : Payload) (keys : List Address) (p : Operation)
    (h : join? payload keys = some p) : p.payload = payload := by
  unfold join? at h
  split at h <;> cases h <;> rfl

/-- Joining gives back an operation from its own payload exactly if the places that are looked at
    hold its addresses. -/
theorem join?_payload_eq_some_iff (p : Operation) (keys : List Address) :
    join? p.payload keys = some p ↔ p.Matches keys := by
  unfold Matches
  -- the longest layout has five places, so five steps into the list decide about every kind
  rcases keys with _ | ⟨a, _ | ⟨b, _ | ⟨c, _ | ⟨d, _ | ⟨e, rest⟩⟩⟩⟩⟩ <;>
    cases p <;> rename_i p <;> cases p <;>
    simp only [tag, Tag.accountCount, Tag.ignoredPlaces, Nat.forall_lt_succ_right] <;>
    simp [join?, payload, toInstruction, Instruction.key?, Instruction.keys, accounts,
      AccountMeta.writable, AccountMeta.readonly, and_assoc]
  -- of a withdrawal, the fields and the places are in different orders
  intro _
  exact and_comm

theorem join?_eq_some_iff (payload : Payload) (keys : List Address) (p : Operation) :
    join? payload keys = some p ↔ payload = p.payload ∧ p.Matches keys := by
  refine ⟨?_, ?_⟩
  · intro h
    have hpayload := payload_of_join? payload keys p h
    rw [← hpayload, join?_payload_eq_some_iff] at h
    exact ⟨hpayload.symm, h⟩
  · intro h
    obtain ⟨rfl, hmatches⟩ := h
    exact (join?_payload_eq_some_iff p keys).2 hmatches

theorem matches_keys_toInstruction (p : Operation) : p.Matches p.toInstruction.keys := by
  refine ⟨?_, fun i _ _ => rfl⟩
  cases p <;> simp [tag, Tag.accountCount, toInstruction, Instruction.keys, accounts]

end Operation

theorem checkProgram_eq_ok_iff (ix : Instruction) (expected : Address) (done : Unit) :
    ix.checkProgram expected = .ok done ↔ ix.program = expected := by
  unfold Instruction.checkProgram
  split
  · rename_i hprogram
    exact iff_of_true rfl hprogram
  · rename_i hprogram
    exact iff_of_false (by simp) hprogram

theorem unpack_eq_ok_iff (data : Bytes) (payload : Payload) :
    Payload.unpack data = .ok payload ↔ payload.pack <+: data := by
  unfold Payload.unpack
  rw [Wire.decode_eq_ok_iff]
  refine ⟨?_, ?_⟩
  · intro h
    obtain ⟨rest, hread⟩ := h
    exact ⟨rest, ((Payload.read_eq_ok_iff data rest payload).1 hread).symm⟩
  · intro h
    obtain ⟨rest, hdata⟩ := h
    exact ⟨rest, (Payload.read_eq_ok_iff data rest payload).2 hdata.symm⟩

theorem decode_eq_ok_iff (ix : Instruction) (p : Operation) :
    decode ix = .ok p ↔
      ix.program = Address.systemProgram ∧ p.payload.pack <+: ix.data ∧ p.Matches ix.keys := by
  unfold decode
  simp only [except_bind_eq_ok_iff, checkProgram_eq_ok_iff, unpack_eq_ok_iff]
  refine ⟨?_, ?_⟩
  · intro h
    obtain ⟨-, hprogram, payload, hdata, h⟩ := h
    split at h
    · rename_i found hjoin
      cases h
      obtain ⟨rfl, hmatches⟩ := (Operation.join?_eq_some_iff payload ix.keys p).1 hjoin
      exact ⟨hprogram, hdata, hmatches⟩
    · exact absurd h (by simp)
  · intro h
    obtain ⟨hprogram, hdata, hmatches⟩ := h
    refine ⟨(), hprogram, p.payload, hdata, ?_⟩
    rw [(Operation.join?_eq_some_iff p.payload ix.keys p).2 ⟨rfl, hmatches⟩]

/-- Decoding gives an operation exactly if the instruction agrees with the layout of the operation
    in all that is looked at. In particular every layout is decoded to its own operation, also if the
    base of a new account is the account that pays and so is not listed a second time. -/
theorem decode_eq_ok_iff_layout :
    (∀ (ix : Instruction) (p : Operation),
      decode ix = .ok p ↔
        ix.program = Address.systemProgram ∧
        p.toInstruction.data <+: ix.data ∧
        p.tag.accountCount ≤ ix.accounts.length ∧
        ∀ i < p.tag.accountCount, i ∉ p.tag.ignoredPlaces →
          ix.key? i = p.toInstruction.key? i) ∧
      ∀ p : Operation, decode p.toInstruction = .ok p := by
  refine ⟨?_, ?_⟩
  · intro ix p
    rw [decode_eq_ok_iff, Operation.Matches, Instruction.keys, List.length_map]
    rfl
  · intro p
    exact (decode_eq_ok_iff _ p).2 ⟨rfl, List.prefix_refl _, p.matches_keys_toInstruction⟩

end LedgerWire.SystemProgram
