set_option autoImplicit false

/-! # Finite doubles

A number with a fraction or an exponent is held as a finite IEEE 754 double, given by its 64 bits,
so that equality of values is equality of bits and a negative zero stays what it is. A finite double
is ±`significand` · 2^`exponent`. -/

namespace LedgerWire

/-- The exponent field of the bits of a double. -/
def exponentField (bits : UInt64) : Nat :=
  bits.toNat >>> 52 % (1 <<< 11)

/-- A double that is neither infinite nor a NaN, by its bits. -/
structure Double where
  bits : UInt64
  finite : exponentField bits < 2047
deriving DecidableEq

namespace Double

/-- The double with the bits of `x`, unless `x` overflowed. -/
def ofFloat? (x : Float) : Option Double :=
  if h : exponentField x.toBits < 2047 then some ⟨x.toBits, h⟩ else none

/-- Whether the sign bit is set. -/
def isNegative (x : Double) : Bool :=
  x.bits.toNat >>> 63 = 1

/-- The fraction field, with the leading bit that only numbers near zero do without. -/
def significand (x : Double) : Nat :=
  let fraction := x.bits.toNat % (1 <<< 52)
  if exponentField x.bits = 0 then fraction else 1 <<< 52 + fraction

/-- The power of two that goes with the significand. -/
def exponent (x : Double) : Int :=
  (max 1 (exponentField x.bits) : Nat) - (1075 : Int)

/-- Whether the next double towards zero lies half as far away as the next one from zero: this is so
    at every power of two except the smallest ones. -/
def isBinadeStart (x : Double) : Bool :=
  x.bits.toNat % (1 <<< 52) = 0 ∧ 1 < exponentField x.bits

end Double

end LedgerWire
