import LedgerWire.LookupTable.Operation
import LedgerWire.Proofs.Derivation.BumpSearch
import LedgerWire.Proofs.LookupTable.Payload

set_option autoImplicit false

/-! # Tables can be checked against the instruction that creates them

The address of a table is found by the bump search, and the bump that the search stopped at goes
into the payload. The authority stands in the account list and the slot in the payload, so an
instruction holds everything that one attempt of the search needs: whoever has the instruction can
derive the address again without searching, and compare it with the account that is to become the
table. -/

namespace LedgerWire.LookupTable

/-! ## Decoding -/

/-- A payload that fits is decoded from every instruction that carries it. -/
theorem decode_instruction (accounts : List AccountMeta) (payload : Payload)
    (hfits : payload.Fits) : decode (instruction accounts payload) = .ok payload := by
  have hunpack : Payload.unpack payload.pack = .ok payload := by
    rw [Payload.unpack, Wire.decode_eq_ok_iff]
    exact ⟨[], (Payload.read_eq_ok_iff _ [] payload).2 ⟨hfits, (List.append_nil _).symm⟩⟩
  have hprogram : (instruction accounts payload).checkProgram Address.lookupTableProgram = .ok () :=
    if_pos rfl
  rw [decode, hprogram]
  exact hunpack

/-! ## The address of a table -/

section Address

variable (scheme : Scheme) (authority : Address) (slot : UInt64)

/-- The seeds of a table: its authority, the slot in eight bytes, least significant first, and a
    bump. -/
def tableSeeds (bump : UInt8) : List Bytes :=
  [authority.bytes, Bytes.ofNatLE 8 slot.toNat, [bump]]

/-- One attempt at the address of a table. -/
def tableAttempt (bump : UInt8) : Except CodecError Address :=
  scheme.createProgramAddress (tableSeeds authority slot bump) Address.lookupTableProgram

theorem deriveAddress_eq_ok_iff (table : Address) (bump : UInt8) :
    deriveAddress scheme authority slot = .ok (table, bump) ↔
      tableAttempt scheme authority slot bump = .ok table ∧
        ∀ larger, bump < larger →
          tableAttempt scheme authority slot larger = .error .addressOnCurve := by
  rw [deriveAddress, Scheme.findProgramAddress_eq_searchBump]
  exact scheme.searchBump_eq_ok_iff _ _ table bump

theorem deriveAddress_eq_noValidBump_iff :
    deriveAddress scheme authority slot = .error .noValidBump ↔
      ∀ bump, tableAttempt scheme authority slot bump = .error .addressOnCurve := by
  rw [deriveAddress, Scheme.findProgramAddress_eq_searchBump]
  exact scheme.searchBump_eq_noValidBump_iff _ _

/-- The seeds of a table are never refused. -/
theorem deriveAddress_eq_ok_or_noValidBump :
    (∃ found, deriveAddress scheme authority slot = .ok found) ∨
      deriveAddress scheme authority slot = .error .noValidBump := by
  refine scheme.findProgramAddress_of_accepted _ _ (by decide : 2 < 16) ?_
  rw [Scheme.find?_isLong_eq_none_iff]
  intro seed hseed
  simp only [List.mem_cons, List.not_mem_nil, or_false] at hseed
  rcases hseed with rfl | rfl
  · exact Nat.le_of_eq authority.length_bytes
  · rw [Wire.encodeU64, Bytes.length_ofNatLE]
    decide

end Address

/-! ## Creation -/

/-- The instruction that creates a table whose address is known. -/
def creation (authoritySigns : Bool) (p : Create) (table : Address) (bump : UInt8) : Instruction :=
  instruction
    [.writable table false, .readonly p.authority authoritySigns, .writable p.payer true,
     .readonly Address.systemProgram false]
    (.create p.recentSlot bump)

theorem createWith_eq_map (authoritySigns : Bool) (scheme : Scheme) (p : Create) :
    createWith authoritySigns scheme p =
      (deriveAddress scheme p.authority p.recentSlot).map fun (table, bump) =>
        (creation authoritySigns p table bump, table) := by
  unfold createWith
  cases deriveAddress scheme p.authority p.recentSlot <;> rfl

theorem fits_create (recentSlot : UInt64) (bump : UInt8) :
    (Payload.create recentSlot bump).Fits := by
  show 0 < UInt64.size
  decide

/-- An instruction that creates `table` and shows where its address comes from. -/
structure Verifiable (scheme : Scheme) (p : Create) (ix : Instruction) (table : Address)
    (bump : UInt8) : Prop where
  decode_eq : decode ix = .ok (.create p.recentSlot bump)
  /-- The first account is the table. -/
  table_eq : ix.key? 0 = some table
  /-- The second account is the authority. -/
  authority_eq : ix.key? 1 = some p.authority
  /-- What the instruction carries leads to the table. -/
  derived_eq : ∀ authority, ix.key? 1 = some authority →
    scheme.createProgramAddress
      [authority.bytes, Bytes.ofNatLE 8 p.recentSlot.toNat, [bump]] Address.lookupTableProgram =
        .ok table
  /-- No larger bump does. -/
  bump_max : ∀ larger, bump < larger → ∀ authority, ix.key? 1 = some authority →
    scheme.createProgramAddress
      [authority.bytes, Bytes.ofNatLE 8 p.recentSlot.toNat, [larger]] Address.lookupTableProgram =
        .error .addressOnCurve

theorem creation_verifiable_of_derived (authoritySigns : Bool) (scheme : Scheme) (p : Create)
    (table : Address) (bump : UInt8)
    (h : deriveAddress scheme p.authority p.recentSlot = .ok (table, bump)) :
    Verifiable scheme p (creation authoritySigns p table bump) table bump := by
  obtain ⟨hattempt, hlarger⟩ := (deriveAddress_eq_ok_iff scheme _ _ table bump).1 h
  refine ⟨decode_instruction _ _ (fits_create _ _), rfl, rfl, ?_, ?_⟩
  · rintro _ ⟨⟩
    exact hattempt
  · rintro larger hlt _ ⟨⟩
    exact hlarger larger hlt

/-- Creating a table with and without the signature of its authority succeeds or fails alike. It
    fails only if all bumps lead to the curve. If it succeeds, then the two instructions differ in
    the flag of the authority and in nothing else, and both show where the address of the table
    comes from. -/
theorem create_verifiable (scheme : Scheme) (p : Create) :
    (create scheme p = .error .noValidBump ∧ createSigned scheme p = .error .noValidBump ∧
        ∀ bump, scheme.createProgramAddress
          [p.authority.bytes, Bytes.ofNatLE 8 p.recentSlot.toNat, [bump]]
          Address.lookupTableProgram = .error .addressOnCurve) ∨
      ∃ ix ixSigned table bump,
        create scheme p = .ok (ix, table) ∧ createSigned scheme p = .ok (ixSigned, table) ∧
          (ix.accounts[1]?).map (·.isSigner) = some false ∧
          ixSigned = { ix with
            accounts := ix.accounts.modify 1 fun account => { account with isSigner := true } } ∧
          Verifiable scheme p ix table bump ∧ Verifiable scheme p ixSigned table bump := by
  rw [create, createSigned, createWith_eq_map, createWith_eq_map]
  rcases deriveAddress_eq_ok_or_noValidBump scheme p.authority p.recentSlot with
    ⟨⟨table, bump⟩, hfound⟩ | hnone
  · rw [hfound]
    exact Or.inr ⟨creation false p table bump, creation true p table bump, table, bump, rfl, rfl,
      rfl, rfl, creation_verifiable_of_derived false scheme p table bump hfound,
      creation_verifiable_of_derived true scheme p table bump hfound⟩
  · rw [hnone]
    exact Or.inl ⟨rfl, rfl, (deriveAddress_eq_noValidBump_iff scheme _ _).1 hnone⟩

end LedgerWire.LookupTable
