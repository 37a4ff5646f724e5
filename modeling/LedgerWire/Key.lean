import LedgerWire.Base58

set_option autoImplicit false

/-! # Keys

A key is a byte string of a fixed size: addresses have 32 bytes and signatures 64. Keys are ordered
byte by byte and shown as Base58 text. Reading a key text reports the first thing that is wrong with
it: for an address its length as text, then a character outside the alphabet, then the number of
bytes it stands for. -/

namespace LedgerWire

/-- A byte string of exactly `size` bytes. -/
structure Key (size : Nat) where
  bytes : Bytes
  length_bytes : bytes.length = size
deriving DecidableEq

/-- An account or program on the ledger. -/
abbrev Address := Key 32

/-- A transaction signature. -/
abbrev Signature := Key 64

/-- Why a byte string or text is not a key. -/
inductive KeyError where
  | textTooLong (byteCount : Nat)
  | badText (cause : Base58.TextError)
  | addressSize (found : Nat)
  | signatureSize (found : Nat)
deriving DecidableEq

/-- What a reader of the key is told. -/
def KeyError.message : KeyError → String
  | .textTooLong n => "base58 text too long: " ++ toString n ++ " characters"
  | .badText cause => cause.message
  | .addressSize n => "expected 32 bytes, got " ++ toString n
  | .signatureSize n => "signature must be 64 bytes, got " ++ toString n

namespace Key

variable {size : Nat}

theorem ext_bytes {a b : Key size} (h : a.bytes = b.bytes) : a = b := by
  cases a; cases b; cases h; rfl

/-- The key of zero bytes. -/
def zero : Key size :=
  ⟨List.replicate size 0, List.length_replicate⟩

instance : Inhabited (Key size) := ⟨zero⟩

/-- Base58 text of a key. -/
def toText (key : Key size) : String :=
  Base58.encode key.bytes

/-- The key on these bytes, if there are as many as it takes. -/
def ofBytes? (bytes : Bytes) : Option (Key size) :=
  if h : bytes.length = size then some ⟨bytes, h⟩ else none

/-! ## Order -/

instance : LT (Key size) := ⟨fun a b => a.bytes < b.bytes⟩

instance : LE (Key size) := ⟨fun a b => a.bytes ≤ b.bytes⟩

instance (a b : Key size) : Decidable (a < b) :=
  inferInstanceAs (Decidable (a.bytes < b.bytes))

instance (a b : Key size) : Decidable (a ≤ b) :=
  inferInstanceAs (Decidable (a.bytes ≤ b.bytes))

instance : Min (Key size) := minOfLe

instance : Max (Key size) := maxOfLe

/-- The keys in increasing order. -/
def sort (keys : List (Key size)) : List (Key size) :=
  keys.mergeSort fun a b => decide (a ≤ b)

end Key

/-! ## Addresses -/

namespace Address

/-- No 32 bytes need more Base58 characters than this. -/
def maxTextSize : Nat := 44

/-- The address on exactly 32 bytes. -/
def ofBytes (bytes : Bytes) : Except KeyError Address :=
  match Key.ofBytes? bytes with
  | some address => .ok address
  | none => .error (.addressSize bytes.length)

/-- The address that a text stands for. -/
def ofText (text : String) : Except KeyError Address :=
  if text.utf8ByteSize > maxTextSize then .error (.textTooLong text.utf8ByteSize)
  else
    match Base58.decode text with
    | .error cause => .error (.badText cause)
    | .ok bytes => ofBytes bytes

/-- The long form that names the kind of key. -/
def describe (address : Address) : String :=
  "Address(" ++ address.toText ++ ")"

/-- The address whose first eight bytes are `n`, most significant first, and whose others are
    zero. Distinct numbers give distinct addresses. -/
def numbered (n : UInt64) : Address :=
  ⟨Bytes.ofNatBE 8 n.toNat ++ List.replicate 24 0, by simp⟩

/-- An address that was not handed out before: the state is the next number. -/
def fresh : StateM UInt64 Address := do
  let n ← get
  set (n + 1)
  pure (numbered n)

end Address

/-! ## Signatures -/

namespace Signature

/-- The signature on exactly 64 bytes. -/
def ofBytes (bytes : Bytes) : Except KeyError Signature :=
  match Key.ofBytes? bytes with
  | some signature => .ok signature
  | none => .error (.signatureSize bytes.length)

/-- The signature that a text stands for. -/
def ofText (text : String) : Except KeyError Signature :=
  match Base58.decode text with
  | .error cause => .error (.badText cause)
  | .ok bytes => ofBytes bytes

/-- The long form that names the kind of key. -/
def describe (signature : Signature) : String :=
  "Signature(" ++ signature.toText ++ ")"

end Signature

/-! ## Well-known addresses -/

namespace Address

/-- The system program: 32 zero bytes. -/
def systemProgram : Address := Key.zero

/-- The account that lists recent blockhashes. -/
def recentBlockhashes : Address :=
  ⟨[6, 167, 213, 23, 25, 44, 86, 142, 224, 138, 132, 95, 115, 210, 151, 136,
    207, 3, 92, 49, 69, 178, 26, 179, 68, 216, 6, 46, 169, 64, 0, 0], rfl⟩

/-- The account that holds the rent parameters. -/
def rent : Address :=
  ⟨[6, 167, 213, 23, 25, 44, 92, 81, 33, 140, 201, 76, 61, 74, 241, 127,
    88, 218, 238, 8, 155, 161, 253, 68, 227, 219, 217, 138, 0, 0, 0, 0], rfl⟩

/-- The address lookup table program. -/
def lookupTableProgram : Address :=
  ⟨[2, 119, 166, 175, 151, 51, 155, 122, 200, 141, 24, 146, 201, 4, 70, 245,
    0, 2, 48, 146, 102, 246, 46, 83, 193, 24, 36, 73, 130, 0, 0, 0], rfl⟩

end Address

end LedgerWire
