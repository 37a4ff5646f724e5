import LedgerWire.Error

set_option autoImplicit false

/-! # Instructions

An instruction calls one program: it lists the accounts that the program may touch, in the order
that the program expects, and carries data that only the program understands. -/

namespace LedgerWire

/-- An account that an instruction refers to, and what it may do with it. -/
structure AccountMeta where
  address : Address
  isSigner : Bool
  isWritable : Bool
deriving DecidableEq

namespace AccountMeta

/-- An account that may change. -/
def writable (address : Address) (isSigner : Bool) : AccountMeta := ⟨address, isSigner, true⟩

/-- An account that is only read. -/
def readonly (address : Address) (isSigner : Bool) : AccountMeta := ⟨address, isSigner, false⟩

end AccountMeta

/-- A call of one program. -/
structure Instruction where
  program : Address
  accounts : List AccountMeta
  data : Bytes
deriving DecidableEq

namespace Instruction

/-- The addresses of the accounts, in order. -/
def keys (instruction : Instruction) : List Address :=
  instruction.accounts.map (·.address)

theorem length_keys (instruction : Instruction) :
    instruction.keys.length = instruction.accounts.length :=
  List.length_map _

/-- The address of the account at `index`. -/
def key? (instruction : Instruction) (index : Nat) : Option Address :=
  instruction.keys[index]?

/-- Refuses an instruction for another program. -/
def checkProgram (instruction : Instruction) (expected : Address) : Except CodecError Unit :=
  if instruction.program = expected then .ok ()
  else .error (.wrongProgram expected instruction.program)

end Instruction

end LedgerWire
