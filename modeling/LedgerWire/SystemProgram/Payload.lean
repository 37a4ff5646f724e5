import LedgerWire.Wire

set_option autoImplicit false

/-! # Payloads of the system program

The data of a system instruction is a 32-bit tag followed by the fields of that tag, in a fixed
order and without padding. `pack` writes a payload and `unpack` reads one from the front of some
data; bytes behind the last field are ignored. -/

namespace LedgerWire.SystemProgram

/-! ## Tags -/

/-- The kinds of system instructions. -/
inductive Tag where
  | createAccount
  | assign
  | transfer
  | createAccountWithSeed
  | advanceNonceAccount
  | withdrawNonceAccount
  | initializeNonceAccount
  | authorizeNonceAccount
  | allocate
  | allocateWithSeed
  | assignWithSeed
  | transferWithSeed
  | upgradeNonceAccount
deriving DecidableEq, Repr

namespace Tag

/-- The number that stands in front of the payload. -/
def code : Tag → UInt32
  | createAccount => 0
  | assign => 1
  | transfer => 2
  | createAccountWithSeed => 3
  | advanceNonceAccount => 4
  | withdrawNonceAccount => 5
  | initializeNonceAccount => 6
  | authorizeNonceAccount => 7
  | allocate => 8
  | allocateWithSeed => 9
  | assignWithSeed => 10
  | transferWithSeed => 11
  | upgradeNonceAccount => 12

/-- What the kind is called. -/
def name : Tag → String
  | createAccount => "CreateAccount"
  | assign => "Assign"
  | transfer => "Transfer"
  | createAccountWithSeed => "CreateAccountWithSeed"
  | advanceNonceAccount => "AdvanceNonceAccount"
  | withdrawNonceAccount => "WithdrawNonceAccount"
  | initializeNonceAccount => "InitializeNonceAccount"
  | authorizeNonceAccount => "AuthorizeNonceAccount"
  | allocate => "Allocate"
  | allocateWithSeed => "AllocateWithSeed"
  | assignWithSeed => "AssignWithSeed"
  | transferWithSeed => "TransferWithSeed"
  | upgradeNonceAccount => "UpgradeNonceAccount"

/-- Every kind once, in the order of the codes. -/
def all : List Tag :=
  [createAccount, assign, transfer, createAccountWithSeed, advanceNonceAccount,
   withdrawNonceAccount, initializeNonceAccount, authorizeNonceAccount, allocate,
   allocateWithSeed, assignWithSeed, transferWithSeed, upgradeNonceAccount]

/-- The kind with this code. -/
def ofCode (code : UInt32) : Except CodecError Tag :=
  match all.find? fun tag => tag.code = code with
  | some tag => .ok tag
  | none => .error (.unknownInstructionTag code)

@[simp] theorem ofCode_code (tag : Tag) : ofCode tag.code = .ok tag := by
  cases tag <;> rfl

theorem code_injective {s t : Tag} (h : s.code = t.code) : s = t := by
  have hs := ofCode_code s
  rw [h, ofCode_code t] at hs
  exact (Except.ok.inj hs).symm

/-- How many accounts the instruction has to list. -/
def accountCount : Tag → Nat
  | createAccount => 2
  | assign => 1
  | transfer => 2
  | createAccountWithSeed => 2
  | advanceNonceAccount => 3
  | withdrawNonceAccount => 5
  | initializeNonceAccount => 3
  | authorizeNonceAccount => 2
  | allocate => 1
  | allocateWithSeed => 2
  | assignWithSeed => 2
  | transferWithSeed => 3
  | upgradeNonceAccount => 1

end Tag

/-! ## Payloads -/

/-- The data of a system instruction, without its accounts. -/
inductive Payload where
  | createAccount (lamports space : UInt64) (owner : Address)
  | assign (owner : Address)
  | transfer (lamports : UInt64)
  | createAccountWithSeed (base : Address) (seed : Seed) (lamports space : UInt64)
      (owner : Address)
  | advanceNonceAccount
  | withdrawNonceAccount (lamports : UInt64)
  | initializeNonceAccount (authority : Address)
  | authorizeNonceAccount (newAuthority : Address)
  | allocate (space : UInt64)
  | allocateWithSeed (base : Address) (seed : Seed) (space : UInt64) (owner : Address)
  | assignWithSeed (base : Address) (seed : Seed) (owner : Address)
  | transferWithSeed (lamports : UInt64) (seed : Seed) (owner : Address)
  | upgradeNonceAccount
deriving DecidableEq

namespace Payload

/-- The kind of a payload. -/
def tag : Payload → Tag
  | createAccount .. => .createAccount
  | assign .. => .assign
  | transfer .. => .transfer
  | createAccountWithSeed .. => .createAccountWithSeed
  | advanceNonceAccount => .advanceNonceAccount
  | withdrawNonceAccount .. => .withdrawNonceAccount
  | initializeNonceAccount .. => .initializeNonceAccount
  | authorizeNonceAccount .. => .authorizeNonceAccount
  | allocate .. => .allocate
  | allocateWithSeed .. => .allocateWithSeed
  | assignWithSeed .. => .assignWithSeed
  | transferWithSeed .. => .transferWithSeed
  | upgradeNonceAccount => .upgradeNonceAccount

open Wire

/-- The fields of a payload, without the tag. -/
def fields : Payload → Bytes
  | createAccount lamports space owner =>
    encodeU64 lamports ++ encodeU64 space ++ encodeAddress owner
  | assign owner => encodeAddress owner
  | transfer lamports => encodeU64 lamports
  | createAccountWithSeed base seed lamports space owner =>
    encodeAddress base ++ encodeSeed seed ++ encodeU64 lamports ++ encodeU64 space
      ++ encodeAddress owner
  | advanceNonceAccount => []
  | withdrawNonceAccount lamports => encodeU64 lamports
  | initializeNonceAccount authority => encodeAddress authority
  | authorizeNonceAccount newAuthority => encodeAddress newAuthority
  | allocate space => encodeU64 space
  | allocateWithSeed base seed space owner =>
    encodeAddress base ++ encodeSeed seed ++ encodeU64 space ++ encodeAddress owner
  | assignWithSeed base seed owner =>
    encodeAddress base ++ encodeSeed seed ++ encodeAddress owner
  | transferWithSeed lamports seed owner =>
    encodeU64 lamports ++ encodeSeed seed ++ encodeAddress owner
  | upgradeNonceAccount => []

/-- The data of an instruction: the tag, then the fields. -/
def pack (payload : Payload) : Bytes :=
  encodeU32 payload.tag.code ++ payload.fields

/-- Reads the fields that belong to a kind. -/
def readFields : Tag → Reader Payload
  | .createAccount => return createAccount (← readU64) (← readU64) (← readAddress)
  | .assign => return assign (← readAddress)
  | .transfer => return transfer (← readU64)
  | .createAccountWithSeed =>
    return createAccountWithSeed (← readAddress) (← readSeed) (← readU64) (← readU64)
      (← readAddress)
  | .advanceNonceAccount => return advanceNonceAccount
  | .withdrawNonceAccount => return withdrawNonceAccount (← readU64)
  | .initializeNonceAccount => return initializeNonceAccount (← readAddress)
  | .authorizeNonceAccount => return authorizeNonceAccount (← readAddress)
  | .allocate => return allocate (← readU64)
  | .allocateWithSeed =>
    return allocateWithSeed (← readAddress) (← readSeed) (← readU64) (← readAddress)
  | .assignWithSeed => return assignWithSeed (← readAddress) (← readSeed) (← readAddress)
  | .transferWithSeed => return transferWithSeed (← readU64) (← readSeed) (← readAddress)
  | .upgradeNonceAccount => return upgradeNonceAccount

/-- Reads a tag and the fields that belong to it. -/
def read : Reader Payload := do
  let code ← readU32
  match Tag.ofCode code with
  | .ok tag => readFields tag
  | .error e => throw e

/-- The payload at the front of some data. -/
def unpack (data : Bytes) : Except CodecError Payload :=
  Wire.decode read data

end Payload

end LedgerWire.SystemProgram
