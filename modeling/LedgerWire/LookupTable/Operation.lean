import LedgerWire.Derivation
import LedgerWire.LookupTable.Payload

set_option autoImplicit false

/-! # Operations of the lookup table program

A table lives at the program-derived address of its authority and the slot it was created at, so
creating one derives that address first. The address is the first account of the instruction, and it
is handed out beside the instruction as well, for those who go on to use the table. -/

namespace LedgerWire.LookupTable

/-- The address of a table, and the bump that leads to it. -/
def deriveAddress (scheme : Scheme) (authority : Address) (recentSlot : UInt64) :
    Except CodecError (Address × UInt8) :=
  scheme.findProgramAddress [authority.bytes, Wire.encodeU64 recentSlot]
    Address.lookupTableProgram

/-- What the creation of a table needs to know. -/
structure Create where
  authority : Address
  payer : Address
  recentSlot : UInt64
deriving DecidableEq

/-- What the extension of a table needs to know. A payer funds the larger table; without one no
    funds are moved. -/
structure Extend where
  payer : Option Address
  table : Address
  authority : Address
  newAddresses : List Address
deriving DecidableEq

/-- A table and the authority that acts on it. -/
structure Manage where
  table : Address
  authority : Address
deriving DecidableEq

/-- What the removal of a table needs to know. -/
structure Close where
  table : Address
  authority : Address
  recipient : Address
deriving DecidableEq

/-- An instruction for the lookup table program. -/
def instruction (accounts : List AccountMeta) (payload : Payload) : Instruction :=
  ⟨Address.lookupTableProgram, accounts, payload.pack⟩

/-- The accounts that every instruction on an existing table starts with. -/
def managedAccounts (table authority : Address) : List AccountMeta :=
  [.writable table false, .readonly authority true]

/-- Creates a table; the flag says whether the authority signs. -/
def createWith (authoritySigns : Bool) (scheme : Scheme) (p : Create) :
    Except CodecError (Instruction × Address) := do
  let (table, bump) ← deriveAddress scheme p.authority p.recentSlot
  return (instruction
    [.writable table false, .readonly p.authority authoritySigns, .writable p.payer true,
     .readonly Address.systemProgram false]
    (.create p.recentSlot bump), table)

/-- Creates a table without asking its authority. -/
def create : Scheme → Create → Except CodecError (Instruction × Address) :=
  createWith false

/-- Creates a table with the signature of its authority. -/
def createSigned : Scheme → Create → Except CodecError (Instruction × Address) :=
  createWith true

/-- Appends addresses to a table. -/
def extend (p : Extend) : Instruction :=
  let funding :=
    match p.payer with
    | some payer => [.writable payer true, .readonly Address.systemProgram false]
    | none => []
  instruction (managedAccounts p.table p.authority ++ funding) (.extend p.newAddresses)

/-- Makes a table unchangeable. -/
def freeze (p : Manage) : Instruction :=
  instruction (managedAccounts p.table p.authority) .freeze

/-- Takes a table out of use. -/
def deactivate (p : Manage) : Instruction :=
  instruction (managedAccounts p.table p.authority) .deactivate

/-- Removes a table and returns its lamports. -/
def close (p : Close) : Instruction :=
  instruction (managedAccounts p.table p.authority ++ [.writable p.recipient false]) .close

end LedgerWire.LookupTable
