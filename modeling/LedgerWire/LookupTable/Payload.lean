import LedgerWire.Instruction
import LedgerWire.Wire

set_option autoImplicit false

/-! # Payloads of the lookup table program

The data of a lookup table instruction is a 32-bit tag followed by the fields of that tag. The
extension of a table carries a count and that many addresses; they are read one by one, so a count
without the addresses to go with it fails at the first one that is missing. -/

namespace LedgerWire.LookupTable

/-- The data of a lookup table instruction, without its accounts. -/
inductive Payload where
  | create (recentSlot : UInt64) (bump : UInt8)
  | freeze
  | extend (newAddresses : List Address)
  | deactivate
  | close
deriving DecidableEq

namespace Payload

open Wire

/-- The number that stands in front of the payload. -/
def code : Payload → UInt32
  | create .. => 0
  | freeze => 1
  | extend .. => 2
  | deactivate => 3
  | close => 4

/-- The fields of a payload, without the tag. -/
def fields : Payload → Bytes
  | create recentSlot bump => encodeU64 recentSlot ++ encodeU8 bump
  | freeze => []
  | extend newAddresses =>
    Bytes.ofNatLE 8 newAddresses.length ++ newAddresses.flatMap encodeAddress
  | deactivate => []
  | close => []

/-- The data of an instruction: the tag, then the fields. -/
def pack (payload : Payload) : Bytes :=
  encodeU32 payload.code ++ payload.fields

/-- Reads the fields that belong to a tag. -/
def readFields (code : UInt32) : Reader Payload :=
  match code with
  | 0 => return create (← readU64) (← readU8)
  | 1 => return freeze
  | 2 => do
    let count ← readU64
    return extend (← readAddresses count.toNat)
  | 3 => return deactivate
  | 4 => return close
  | _ => throw (.unknownInstructionTag code)

/-- Reads a tag and the fields that belong to it. -/
def read : Reader Payload := do
  readFields (← readU32)

/-- The payload at the front of some data. -/
def unpack (data : Bytes) : Except CodecError Payload :=
  Wire.decode read data

end Payload

/-- The payload of an instruction for the lookup table program. -/
def decode (instruction : Instruction) : Except CodecError Payload := do
  instruction.checkProgram Address.lookupTableProgram
  Payload.unpack instruction.data

end LedgerWire.LookupTable
