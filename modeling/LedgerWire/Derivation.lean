import LedgerWire.Curve
import LedgerWire.Seed
import LedgerWire.Sha256

set_option autoImplicit false

/-! # Derived addresses

Two kinds of addresses are derived by hashing. A seed-derived address hashes a base address, a seed
text and an owner. A program-derived address hashes a list of seeds, the program and a marker, and
counts only if it is no point of the curve, so that nobody holds its private key. The bump search
appends a byte to the seeds, from 255 down, until that is so.

Nothing here depends on which hash and which curve are used: the functions take them as a `Scheme`,
and `Scheme.standard` is SHA-256 with the curve of `Curve`. -/

namespace LedgerWire

/-- The most seeds a program-derived address may have, bump included. -/
def maxSeeds : Nat := 16

/-- What keeps program-derived hashes apart from all others. -/
def programMarker : Bytes := Bytes.ofText "ProgramDerivedAddress"

/-- A hash into addresses and a test for points of the curve. -/
structure Scheme where
  digest : Bytes → Address
  onCurve : Address → Bool

namespace Scheme

/-- SHA-256 and the test for public keys. -/
def standard : Scheme := ⟨Sha256.digest, Curve.contains⟩

variable (scheme : Scheme)

/-- The address of a base, a seed text and an owner. -/
def deriveWithSeed (base : Address) (seed : String) (owner : Address) :
    Except CodecError Address := do
  checkSeedSize seed.utf8ByteSize
  return scheme.digest (base.bytes ++ Bytes.ofText seed ++ owner.bytes)

/-- The message that is hashed for a program-derived address. -/
def programMessage (seeds : List Bytes) (program : Address) : Bytes :=
  seeds.flatten ++ program.bytes ++ programMarker

/-- The program-derived address of exactly these seeds. The number of seeds is checked first, then
    each size in order, then whether the address is free. -/
def createProgramAddress (seeds : List Bytes) (program : Address) :
    Except CodecError Address := do
  if seeds.length > maxSeeds then throw (.tooManySeeds seeds.length)
  seeds.forM fun seed => checkSeedSize seed.length
  let address := scheme.digest (programMessage seeds program)
  if scheme.onCurve address then throw .addressOnCurve
  return address

/-- Tries the bumps below `bound`, the largest first. Only an address on the curve makes the search
    go on. -/
def searchBump (seeds : List Bytes) (program : Address) :
    (bound : Nat) → Except CodecError (Address × UInt8)
  | 0 => .error .noValidBump
  | bump + 1 =>
    match scheme.createProgramAddress (seeds ++ [[UInt8.ofNat bump]]) program with
    | .ok address => .ok (address, UInt8.ofNat bump)
    | .error .addressOnCurve => searchBump seeds program bump
    | .error e => .error e

/-- The program-derived address with the largest possible bump. -/
def findProgramAddress (seeds : List Bytes) (program : Address) :
    Except CodecError (Address × UInt8) :=
  if seeds.length ≥ maxSeeds then .error (.tooManySeeds (seeds.length + 1))
  else scheme.searchBump seeds program 256

end Scheme

end LedgerWire
