import LedgerWire.Proofs.LookupTable.Creation
import LedgerWire.SystemProgram.Operation

set_option autoImplicit false

/-! # Operations can be recovered from their instructions

Several operations on a table list the same accounts and some share the shape of their payload, but
no two agree in both. The payload tells the kinds apart, except for the two creations, which differ
in the flag of the authority, and an extension without funds lists fewer accounts than one with
them. So payload and accounts together give back the operation with everything it was asked with,
although no reader of the program does so. -/

namespace LedgerWire.LookupTable

/-- Something that the lookup table program is asked for. -/
inductive Operation where
  | create (p : Create)
  | createSigned (p : Create)
  | extend (p : Extend)
  | freeze (p : Manage)
  | deactivate (p : Manage)
  | close (p : Close)
deriving DecidableEq

namespace Operation

/-- The instruction that asks for an operation. Only a creation can fail. -/
def toInstruction (scheme : Scheme) : Operation → Except CodecError Instruction
  | create p => (LookupTable.create scheme p).map Prod.fst
  | createSigned p => (LookupTable.createSigned scheme p).map Prod.fst
  | extend p => .ok (LookupTable.extend p)
  | freeze p => .ok (LookupTable.freeze p)
  | deactivate p => .ok (LookupTable.deactivate p)
  | close p => .ok (LookupTable.close p)

/-- The payload of a creation, with the bump of the address of the table. -/
def creationPayload (scheme : Scheme) (p : Create) : Except CodecError Payload :=
  (deriveAddress scheme p.authority p.recentSlot).map fun (_, bump) => .create p.recentSlot bump

/-- The payload that an operation asks with. -/
def payload (scheme : Scheme) : Operation → Except CodecError Payload
  | create p => creationPayload scheme p
  | createSigned p => creationPayload scheme p
  | extend p => .ok (.extend p.newAddresses)
  | freeze _ => .ok .freeze
  | deactivate _ => .ok .deactivate
  | close _ => .ok .close

/-- The number of new addresses fits into 64 bits. -/
def Fits : Operation → Prop
  | extend p => p.newAddresses.length < UInt64.size
  | _ => True

/-! ## Recovery -/

/-- The operation with this payload and these accounts. -/
def join? : Payload → List AccountMeta → Option Operation
  | .create recentSlot _, [_, authority, payer, _] =>
    let p : Create := ⟨authority.address, payer.address, recentSlot⟩
    some (if authority.isSigner then createSigned p else create p)
  | .extend newAddresses, [table, authority] =>
    some (extend ⟨none, table.address, authority.address, newAddresses⟩)
  | .extend newAddresses, [table, authority, payer, _] =>
    some (extend ⟨some payer.address, table.address, authority.address, newAddresses⟩)
  | .freeze, [table, authority] => some (freeze ⟨table.address, authority.address⟩)
  | .deactivate, [table, authority] => some (deactivate ⟨table.address, authority.address⟩)
  | .close, [table, authority, recipient] =>
    some (close ⟨table.address, authority.address, recipient.address⟩)
  | _, _ => none

/-- `ix` consists of accounts and a payload that give back `op`. -/
def LaidOut (scheme : Scheme) (op : Operation) (ix : Instruction) : Prop :=
  ∃ accounts payload, op.payload scheme = .ok payload ∧ payload.Fits ∧
    ix = instruction accounts payload ∧ join? payload accounts = some op

theorem laidOut_creation (scheme : Scheme) (authoritySigns : Bool) (p : Create) (ix : Instruction)
    (h : (createWith authoritySigns scheme p).map Prod.fst = .ok ix) :
    LaidOut scheme (if authoritySigns then createSigned p else create p) ix := by
  rw [createWith_eq_map] at h
  obtain ⟨_, hcreate, rfl⟩ := (except_map_eq_ok_iff _ _ _).1 h
  obtain ⟨⟨table, bump⟩, hderived, rfl⟩ := (except_map_eq_ok_iff _ _ _).1 hcreate
  have hpayload : creationPayload scheme p = .ok (.create p.recentSlot bump) := by
    rw [creationPayload, hderived]
    rfl
  cases authoritySigns with
  | true => exact ⟨_, _, hpayload, fits_create _ _, rfl, rfl⟩
  | false => exact ⟨_, _, hpayload, fits_create _ _, rfl, rfl⟩

theorem laidOut_of_toInstruction (scheme : Scheme) (op : Operation) (ix : Instruction)
    (hfits : op.Fits) (h : op.toInstruction scheme = .ok ix) : LaidOut scheme op ix := by
  -- payloads without addresses fit
  have hzero : 0 < UInt64.size := by decide
  cases op with
  | create p => exact laidOut_creation scheme false p ix h
  | createSigned p => exact laidOut_creation scheme true p ix h
  | extend p =>
    cases h
    obtain ⟨payer, table, authority, newAddresses⟩ := p
    cases payer with
    | none => exact ⟨_, _, rfl, hfits, rfl, rfl⟩
    | some payer => exact ⟨_, _, rfl, hfits, rfl, rfl⟩
  | freeze p =>
    cases h
    exact ⟨_, _, rfl, hzero, rfl, rfl⟩
  | deactivate p =>
    cases h
    exact ⟨_, _, rfl, hzero, rfl, rfl⟩
  | close p =>
    cases h
    exact ⟨_, _, rfl, hzero, rfl, rfl⟩

/-- The operation that an instruction asks for. -/
def ofInstruction? (ix : Instruction) : Option Operation :=
  match decode ix with
  | .ok payload => join? payload ix.accounts
  | .error _ => none

theorem LaidOut.ofInstruction?_eq {scheme : Scheme} {op : Operation} {ix : Instruction}
    (h : LaidOut scheme op ix) : ofInstruction? ix = some op := by
  obtain ⟨accounts, payload, -, hfits, rfl, hjoin⟩ := h
  rw [ofInstruction?, decode_instruction accounts payload hfits]
  exact hjoin

theorem LaidOut.exists_decode_eq {scheme : Scheme} {op : Operation} {ix : Instruction}
    (h : LaidOut scheme op ix) :
    ∃ payload, op.payload scheme = .ok payload ∧ decode ix = .ok payload := by
  obtain ⟨accounts, payload, hpayload, hfits, rfl, -⟩ := h
  exact ⟨payload, hpayload, decode_instruction accounts payload hfits⟩

/-- The system program is not addressed. -/
theorem LaidOut.systemProgram_decode_eq {scheme : Scheme} {op : Operation} {ix : Instruction}
    (h : LaidOut scheme op ix) :
    SystemProgram.decode ix =
      .error (.wrongProgram Address.systemProgram Address.lookupTableProgram) := by
  obtain ⟨accounts, payload, -, -, rfl, -⟩ := h
  have hprogram : (instruction accounts payload).checkProgram Address.systemProgram =
      .error (.wrongProgram Address.systemProgram Address.lookupTableProgram) :=
    if_neg (by decide : Address.lookupTableProgram ≠ Address.systemProgram)
  rw [SystemProgram.decode, hprogram]
  rfl

/-- An instruction that was built for an operation was built for this one only, with all that it was
    asked with. It is decoded to the payload of the operation, and is no instruction for the system
    program. -/
theorem toInstruction_determines (scheme : Scheme) (op : Operation) (ix : Instruction)
    (hfits : op.Fits) (h : op.toInstruction scheme = .ok ix) :
    (∀ op' : Operation, op'.Fits → op'.toInstruction scheme = .ok ix → op' = op) ∧
      (∃ payload, op.payload scheme = .ok payload ∧ decode ix = .ok payload) ∧
      SystemProgram.decode ix =
        .error (.wrongProgram Address.systemProgram Address.lookupTableProgram) := by
  have hlayout := laidOut_of_toInstruction scheme op ix hfits h
  refine ⟨?_, hlayout.exists_decode_eq, hlayout.systemProgram_decode_eq⟩
  intro op' hfits' h'
  have hlayout' := laidOut_of_toInstruction scheme op' ix hfits' h'
  exact Option.some.inj (hlayout'.ofInstruction?_eq.symm.trans hlayout.ofInstruction?_eq)

/-- A table that is extended with one address twice, and the payer of which is its authority. -/
theorem toInstruction_determines_funded_extend :
    (extend ⟨some .zero, Address.rent, .zero, [Address.rent, Address.rent]⟩).Fits ∧
      toInstruction Scheme.standard
          (extend ⟨some .zero, Address.rent, .zero, [Address.rent, Address.rent]⟩) =
        .ok (LookupTable.extend ⟨some .zero, Address.rent, .zero, [Address.rent, Address.rent]⟩) ∧
      ∀ op' : Operation, op'.Fits →
        op'.toInstruction Scheme.standard =
          .ok (LookupTable.extend
            ⟨some .zero, Address.rent, .zero, [Address.rent, Address.rent]⟩) →
        op' = extend ⟨some .zero, Address.rent, .zero, [Address.rent, Address.rent]⟩ := by
  have hfits : (extend ⟨some .zero, Address.rent, .zero, [Address.rent, Address.rent]⟩).Fits := by
    show 2 < UInt64.size
    decide
  exact ⟨hfits, rfl, (toInstruction_determines Scheme.standard _ _ hfits rfl).1⟩

end Operation

end LedgerWire.LookupTable
