import LedgerWire.Key

set_option autoImplicit false

/-! # Points of the curve

The twisted Edwards curve −x² + y² = 1 + d·x²·y² over the field of p = 2²⁵⁵ − 19 elements. An
address encodes y in its low 255 bits, least significant byte first, and the sign of x in the top
bit. It can be a public key exactly if some x goes with that y.

The equation gives x² = (y² − 1) / (d·y² + 1). The denominator is never zero, so x exists exactly
if (y² − 1)·(d·y² + 1) is zero or a square, which its power (p − 1) / 2 tells. The sign bit selects
between x and −x and plays no part, and y is taken modulo p. -/

namespace LedgerWire.Curve

/-- The order of the field. -/
def p : Nat := 1 <<< 255 - 19

/-- The coefficient −121665 / 121666. -/
def d : Nat :=
  37095705934669439343138083508754565189542113879843219016388785533085940283555

/-- The residue of `base ^ exponent`, by repeated squaring. -/
def powMod (modulus base exponent : Nat) : Nat :=
  if h : exponent = 0 then 1 % modulus
  else
    let half := powMod modulus (base * base % modulus) (exponent / 2)
    if exponent % 2 = 1 then half * base % modulus else half
termination_by exponent
decreasing_by
  exact Nat.div_lt_self (by omega) (by omega)

/-- Whether a residue is zero or the square of a residue. -/
def isSquare (n : Nat) : Bool :=
  powMod p n ((p - 1) / 2) ≤ 1

/-- The coordinate y that 32 bytes encode. -/
def coordinate (bytes : Bytes) : Nat :=
  bytes.toNatLE % (1 <<< 255) % p

/-- Whether an address is the encoding of a point of the curve. -/
def contains (address : Address) : Bool :=
  let y := coordinate address.bytes
  let yy := y * y % p
  isSquare ((yy + p - 1) % p * ((d * yy + 1) % p) % p)

end LedgerWire.Curve
