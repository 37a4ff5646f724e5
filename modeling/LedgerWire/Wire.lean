import LedgerWire.Seed

set_option autoImplicit false

/-! # Wire primitives

The fields of an instruction payload are little-endian integers, raw 32-byte addresses, and texts
with a 64-bit length in front of their UTF-8 bytes.

A `Reader` consumes bytes from the front of what is left. Its state survives a failure, so what a
failed read leaves behind is part of its meaning: every primitive leaves the bytes as it found
them, and only `readSeed`, which first reads a text and then weighs it, has already consumed a text
that turns out to be too long. -/

namespace LedgerWire.Wire

/-! ## Writing -/

/-- One byte. -/
def encodeU8 (n : UInt8) : Bytes := [n]

/-- Four bytes, least significant first. -/
def encodeU32 (n : UInt32) : Bytes := Bytes.ofNatLE 4 n.toNat

/-- Eight bytes, least significant first. -/
def encodeU64 (n : UInt64) : Bytes := Bytes.ofNatLE 8 n.toNat

/-- The 32 bytes of an address. -/
def encodeAddress (address : Address) : Bytes := address.bytes

/-- The encoded size in eight bytes, then the encoded text. -/
def encodeText (text : String) : Bytes :=
  Bytes.ofNatLE 8 text.utf8ByteSize ++ Bytes.ofText text

/-- A seed is written as its text. -/
def encodeSeed (seed : Seed) : Bytes := encodeText seed.text

/-! ## Reading -/

/-- A computation on the bytes that are left. -/
abbrev Reader := EStateM CodecError Bytes

/-- The next `count` bytes. -/
def take (count : Nat) : Reader Bytes := fun left =>
  if count ≤ left.length then .ok (left.take count) (left.drop count)
  else .error (.truncatedInput count left.length) left

/-- One byte. -/
def readU8 : Reader UInt8 := do
  return UInt8.ofNat (← take 1).toNatLE

/-- A little-endian 32-bit integer. -/
def readU32 : Reader UInt32 := do
  return UInt32.ofNat (← take 4).toNatLE

/-- A little-endian 64-bit integer. -/
def readU64 : Reader UInt64 := do
  return UInt64.ofNat (← take 8).toNatLE

/-- A raw address. -/
def readAddress : Reader Address := fun left =>
  if h : 32 ≤ left.length then .ok ⟨left.take 32, by simp [h]⟩ (left.drop 32)
  else .error (.truncatedInput 32 left.length) left

/-- A text behind its size. A declared size that is not there is reported against what follows the
    size itself; in either failure the size is put back. -/
def readText : Reader String := fun start =>
  match readU64 start with
  | .error e left => .error e left
  | .ok size left =>
    if size.toNat ≤ left.length then
      match Bytes.toText? (left.take size.toNat) with
      | some text => .ok text (left.drop size.toNat)
      | none => .error .invalidUtf8 start
    else .error (.truncatedInput size.toNat left.length) start

/-- A text that is short enough for a seed. -/
def readSeed : Reader Seed := fun start =>
  match readText start with
  | .error e left => .error e left
  | .ok text left =>
    match Seed.ofText text with
    | .ok seed => .ok seed left
    | .error e => .error e left

/-- As many addresses as asked for, one after the other. The first one that is missing ends the
    read, whatever the count. -/
def readAddresses : (count : Nat) → Reader (List Address)
  | 0 => pure []
  | count + 1 => do
    let first ← readAddress
    let others ← readAddresses count
    return first :: others

/-- Reads from the start of `data`; bytes behind what was read are not looked at. -/
def decode {α : Type} (reader : Reader α) (data : Bytes) : Except CodecError α :=
  match reader data with
  | .ok a _ => .ok a
  | .error e _ => .error e

end LedgerWire.Wire
