import LedgerWire.Derivation
import LedgerWire.Instruction
import LedgerWire.SystemProgram.Payload

set_option autoImplicit false

/-! # Operations of the system program

An operation is everything a system instruction says: the fields of its payload together with the
addresses that stand in its account list. `Operation.toInstruction` lays an operation out as the
system program expects it. `decode` goes back: it checks the program, reads the payload, and takes
the addresses from their places in the account list, without looking at flags or at the accounts of
the layout that are the same for every operation. -/

namespace LedgerWire.SystemProgram

/-! ## What each operation carries -/

/-- Creates an account owned by `owner`; both accounts sign. -/
structure CreateAccount where
  source : Address
  target : Address
  lamports : UInt64
  space : UInt64
  owner : Address
deriving DecidableEq

/-- Hands an account to another program. -/
structure Assign where
  account : Address
  owner : Address
deriving DecidableEq

/-- Moves lamports between two accounts. -/
structure Transfer where
  source : Address
  target : Address
  lamports : UInt64
deriving DecidableEq

/-- Creates an account at an address derived from `base`, which signs in its place. -/
structure CreateAccountWithSeed where
  source : Address
  target : Address
  base : Address
  seed : Seed
  lamports : UInt64
  space : UInt64
  owner : Address
deriving DecidableEq

/-- Replaces the stored nonce by the next one. -/
structure AdvanceNonceAccount where
  nonce : Address
  authorized : Address
deriving DecidableEq

/-- Moves lamports out of a nonce account. -/
structure WithdrawNonceAccount where
  nonce : Address
  authorized : Address
  target : Address
  lamports : UInt64
deriving DecidableEq

/-- Stores a first nonce and says who may use it. -/
structure InitializeNonceAccount where
  nonce : Address
  authority : Address
deriving DecidableEq

/-- Changes who may use the nonce. -/
structure AuthorizeNonceAccount where
  nonce : Address
  authorized : Address
  newAuthority : Address
deriving DecidableEq

/-- Reserves space in an account. -/
structure Allocate where
  account : Address
  space : UInt64
deriving DecidableEq

/-- Reserves space in an account at a derived address. -/
structure AllocateWithSeed where
  account : Address
  base : Address
  seed : Seed
  space : UInt64
  owner : Address
deriving DecidableEq

/-- Hands an account at a derived address to another program. -/
structure AssignWithSeed where
  account : Address
  base : Address
  seed : Seed
  owner : Address
deriving DecidableEq

/-- Moves lamports out of an account at a derived address. -/
structure TransferWithSeed where
  source : Address
  base : Address
  seed : Seed
  owner : Address
  target : Address
  lamports : UInt64
deriving DecidableEq

/-- Brings a nonce account to the current format. -/
structure UpgradeNonceAccount where
  nonce : Address
deriving DecidableEq

/-- A system instruction with the addresses it works on. -/
inductive Operation where
  | createAccount (p : CreateAccount)
  | assign (p : Assign)
  | transfer (p : Transfer)
  | createAccountWithSeed (p : CreateAccountWithSeed)
  | advanceNonceAccount (p : AdvanceNonceAccount)
  | withdrawNonceAccount (p : WithdrawNonceAccount)
  | initializeNonceAccount (p : InitializeNonceAccount)
  | authorizeNonceAccount (p : AuthorizeNonceAccount)
  | allocate (p : Allocate)
  | allocateWithSeed (p : AllocateWithSeed)
  | assignWithSeed (p : AssignWithSeed)
  | transferWithSeed (p : TransferWithSeed)
  | upgradeNonceAccount (p : UpgradeNonceAccount)
deriving DecidableEq

namespace Operation

/-- The kind of an operation. -/
def tag : Operation → Tag
  | createAccount _ => .createAccount
  | assign _ => .assign
  | transfer _ => .transfer
  | createAccountWithSeed _ => .createAccountWithSeed
  | advanceNonceAccount _ => .advanceNonceAccount
  | withdrawNonceAccount _ => .withdrawNonceAccount
  | initializeNonceAccount _ => .initializeNonceAccount
  | authorizeNonceAccount _ => .authorizeNonceAccount
  | allocate _ => .allocate
  | allocateWithSeed _ => .allocateWithSeed
  | assignWithSeed _ => .assignWithSeed
  | transferWithSeed _ => .transferWithSeed
  | upgradeNonceAccount _ => .upgradeNonceAccount

/-! ## Layout -/

/-- The part of an operation that goes into the data. -/
def payload : Operation → Payload
  | createAccount p => .createAccount p.lamports p.space p.owner
  | assign p => .assign p.owner
  | transfer p => .transfer p.lamports
  | createAccountWithSeed p => .createAccountWithSeed p.base p.seed p.lamports p.space p.owner
  | advanceNonceAccount _ => .advanceNonceAccount
  | withdrawNonceAccount p => .withdrawNonceAccount p.lamports
  | initializeNonceAccount p => .initializeNonceAccount p.authority
  | authorizeNonceAccount p => .authorizeNonceAccount p.newAuthority
  | allocate p => .allocate p.space
  | allocateWithSeed p => .allocateWithSeed p.base p.seed p.space p.owner
  | assignWithSeed p => .assignWithSeed p.base p.seed p.owner
  | transferWithSeed p => .transferWithSeed p.lamports p.seed p.owner
  | upgradeNonceAccount _ => .upgradeNonceAccount

/-- The accounts of an operation. The base of a new account is listed only if it is not the account
    that pays, which signs anyway. -/
def accounts : Operation → List AccountMeta
  | createAccount p => [.writable p.source true, .writable p.target true]
  | assign p => [.writable p.account true]
  | transfer p => [.writable p.source true, .writable p.target false]
  | createAccountWithSeed p =>
    [.writable p.source true, .writable p.target false]
      ++ (if p.base = p.source then [] else [.readonly p.base true])
  | advanceNonceAccount p =>
    [.writable p.nonce false, .readonly Address.recentBlockhashes false,
     .readonly p.authorized true]
  | withdrawNonceAccount p =>
    [.writable p.nonce false, .writable p.target false,
     .readonly Address.recentBlockhashes false, .readonly Address.rent false,
     .readonly p.authorized true]
  | initializeNonceAccount p =>
    [.writable p.nonce false, .readonly Address.recentBlockhashes false,
     .readonly Address.rent false]
  | authorizeNonceAccount p => [.writable p.nonce false, .readonly p.authorized true]
  | allocate p => [.writable p.account true]
  | allocateWithSeed p => [.writable p.account false, .readonly p.base true]
  | assignWithSeed p => [.writable p.account false, .readonly p.base true]
  | transferWithSeed p =>
    [.writable p.source false, .readonly p.base true, .writable p.target false]
  | upgradeNonceAccount p => [.writable p.nonce false]

/-- The instruction that asks for an operation. -/
def toInstruction (operation : Operation) : Instruction :=
  ⟨Address.systemProgram, operation.accounts, operation.payload.pack⟩

/-! ## Reading -/

/-- Joins a payload with the addresses of an account list, if the list is long enough. -/
def join? : Payload → (keys : List Address) → Option Operation
  | .createAccount lamports space owner, source :: target :: _ =>
    some (createAccount ⟨source, target, lamports, space, owner⟩)
  | .assign owner, account :: _ => some (assign ⟨account, owner⟩)
  | .transfer lamports, source :: target :: _ => some (transfer ⟨source, target, lamports⟩)
  | .createAccountWithSeed base seed lamports space owner, source :: target :: _ =>
    some (createAccountWithSeed ⟨source, target, base, seed, lamports, space, owner⟩)
  | .advanceNonceAccount, nonce :: _ :: authorized :: _ =>
    some (advanceNonceAccount ⟨nonce, authorized⟩)
  | .withdrawNonceAccount lamports, nonce :: target :: _ :: _ :: authorized :: _ =>
    some (withdrawNonceAccount ⟨nonce, authorized, target, lamports⟩)
  | .initializeNonceAccount authority, nonce :: _ :: _ :: _ =>
    some (initializeNonceAccount ⟨nonce, authority⟩)
  | .authorizeNonceAccount newAuthority, nonce :: authorized :: _ =>
    some (authorizeNonceAccount ⟨nonce, authorized, newAuthority⟩)
  | .allocate space, account :: _ => some (allocate ⟨account, space⟩)
  | .allocateWithSeed base seed space owner, account :: _ :: _ =>
    some (allocateWithSeed ⟨account, base, seed, space, owner⟩)
  | .assignWithSeed base seed owner, account :: _ :: _ =>
    some (assignWithSeed ⟨account, base, seed, owner⟩)
  | .transferWithSeed lamports seed owner, source :: base :: target :: _ =>
    some (transferWithSeed ⟨source, base, seed, owner, target, lamports⟩)
  | .upgradeNonceAccount, nonce :: _ => some (upgradeNonceAccount ⟨nonce⟩)
  | _, _ => none

end Operation

/-- The operation that an instruction asks for. -/
def decode (instruction : Instruction) : Except CodecError Operation := do
  instruction.checkProgram Address.systemProgram
  let payload ← Payload.unpack instruction.data
  match Operation.join? payload instruction.keys with
  | some operation => .ok operation
  | none => .error (.notEnoughAccounts payload.tag.accountCount instruction.accounts.length)

/-- Reads an instruction of one kind: `select` picks the operations of kind `tag`, and any other
    operation is an error that names both kinds. -/
def decodeAs {α : Type} (tag : Tag) (select : Operation → Option α) (instruction : Instruction) :
    Except CodecError α := do
  let operation ← decode instruction
  match select operation with
  | some p => .ok p
  | none => .error (.unexpectedInstruction tag.code operation.tag.code)

/-- Reads a `CreateAccount` instruction. -/
def decodeCreateAccount : Instruction → Except CodecError CreateAccount :=
  decodeAs .createAccount fun | .createAccount p => some p | _ => none

/-- Reads an `Assign` instruction. -/
def decodeAssign : Instruction → Except CodecError Assign :=
  decodeAs .assign fun | .assign p => some p | _ => none

/-- Reads a `Transfer` instruction. -/
def decodeTransfer : Instruction → Except CodecError Transfer :=
  decodeAs .transfer fun | .transfer p => some p | _ => none

/-- Reads a `CreateAccountWithSeed` instruction. -/
def decodeCreateAccountWithSeed : Instruction → Except CodecError CreateAccountWithSeed :=
  decodeAs .createAccountWithSeed fun | .createAccountWithSeed p => some p | _ => none

/-- Reads an `AdvanceNonceAccount` instruction. -/
def decodeAdvanceNonceAccount : Instruction → Except CodecError AdvanceNonceAccount :=
  decodeAs .advanceNonceAccount fun | .advanceNonceAccount p => some p | _ => none

/-- Reads a `WithdrawNonceAccount` instruction. -/
def decodeWithdrawNonceAccount : Instruction → Except CodecError WithdrawNonceAccount :=
  decodeAs .withdrawNonceAccount fun | .withdrawNonceAccount p => some p | _ => none

/-- Reads an `InitializeNonceAccount` instruction. -/
def decodeInitializeNonceAccount : Instruction → Except CodecError InitializeNonceAccount :=
  decodeAs .initializeNonceAccount fun | .initializeNonceAccount p => some p | _ => none

/-- Reads an `AuthorizeNonceAccount` instruction. -/
def decodeAuthorizeNonceAccount : Instruction → Except CodecError AuthorizeNonceAccount :=
  decodeAs .authorizeNonceAccount fun | .authorizeNonceAccount p => some p | _ => none

/-- Reads an `Allocate` instruction. -/
def decodeAllocate : Instruction → Except CodecError Allocate :=
  decodeAs .allocate fun | .allocate p => some p | _ => none

/-- Reads an `AllocateWithSeed` instruction. -/
def decodeAllocateWithSeed : Instruction → Except CodecError AllocateWithSeed :=
  decodeAs .allocateWithSeed fun | .allocateWithSeed p => some p | _ => none

/-- Reads an `AssignWithSeed` instruction. -/
def decodeAssignWithSeed : Instruction → Except CodecError AssignWithSeed :=
  decodeAs .assignWithSeed fun | .assignWithSeed p => some p | _ => none

/-- Reads a `TransferWithSeed` instruction. -/
def decodeTransferWithSeed : Instruction → Except CodecError TransferWithSeed :=
  decodeAs .transferWithSeed fun | .transferWithSeed p => some p | _ => none

/-- Reads an `UpgradeNonceAccount` instruction. -/
def decodeUpgradeNonceAccount : Instruction → Except CodecError UpgradeNonceAccount :=
  decodeAs .upgradeNonceAccount fun | .upgradeNonceAccount p => some p | _ => none

/-! ## Common requests -/

/-- The operation that creates an account at the address derived from `base`, `seed` and `owner`. -/
def CreateAccountWithSeed.derived (scheme : Scheme) (source base : Address) (seed : Seed)
    (lamports space : UInt64) (owner : Address) : Except CodecError CreateAccountWithSeed := do
  let target ← scheme.deriveWithSeed base seed.text owner
  return ⟨source, target, base, seed, lamports, space, owner⟩

/-- One transfer for each recipient, in the given order. -/
def transferMany (source : Address) (recipients : List (Address × UInt64)) : List Instruction :=
  recipients.map fun (target, lamports) =>
    (Operation.transfer ⟨source, target, lamports⟩).toInstruction

/-- The size of the state of a nonce account. -/
def nonceStateSize : UInt64 := 80

/-- Creates a nonce account and stores its first nonce. -/
def createNonceAccount (source nonce authority : Address) (lamports : UInt64) :
    List Instruction :=
  [(Operation.createAccount
      ⟨source, nonce, lamports, nonceStateSize, Address.systemProgram⟩).toInstruction,
   (Operation.initializeNonceAccount ⟨nonce, authority⟩).toInstruction]

/-- Creates a nonce account at a derived address and stores its first nonce. -/
def createNonceAccountWithSeed (source nonce base : Address) (seed : Seed) (authority : Address)
    (lamports : UInt64) : List Instruction :=
  [(Operation.createAccountWithSeed
      ⟨source, nonce, base, seed, lamports, nonceStateSize,
       Address.systemProgram⟩).toInstruction,
   (Operation.initializeNonceAccount ⟨nonce, authority⟩).toInstruction]

end LedgerWire.SystemProgram
