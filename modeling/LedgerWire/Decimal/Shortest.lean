import LedgerWire.Double
import LedgerWire.Radix

set_option autoImplicit false

/-! # The shortest decimal of a double

Among the decimals that read back as a given double, take one with the fewest digits, and of those
the nearest to the double; of two equally near ones the even one.

The decimals that read back are the ones in the rounding interval, from half way to the neighbour
below to half way to the neighbour above, the ends included exactly if the significand is even. All
of it is exact arithmetic on natural numbers: with a suitable `unit` the double is
`4 · significand / unit`, and the ends of the interval are 1 or 2 and 2 quarters away. If a decimal
of a given number of digits lies in the interval, so does one of the two next to the double, so only
these two are tried for each number of digits. -/

namespace LedgerWire.Decimal

/-- `coefficient · 10^exponent`. -/
structure Scientific where
  coefficient : Nat
  exponent : Int
deriving DecidableEq

/-- A positive number `mid / unit` with its rounding interval, from `low / unit` to
    `high / unit`. -/
structure Interval where
  low : Nat
  mid : Nat
  high : Nat
  unit : Nat
  closed : Bool

/-- The rounding interval of the absolute value of a double. -/
def Interval.ofDouble (x : Double) : Interval :=
  let m := x.significand
  let q := x.exponent - 2
  let factor := 1 <<< q.toNat
  { low := (4 * m - (if x.isBinadeStart then 1 else 2)) * factor
    mid := 4 * m * factor
    high := (4 * m + 2) * factor
    unit := 1 <<< (-q).toNat
    closed := m % 2 = 0 }

/-- Whether `n / d` lies in the interval. -/
def Interval.contains (i : Interval) (n d : Nat) : Bool :=
  if i.closed then i.low * d ≤ n * i.unit ∧ n * i.unit ≤ i.high * d
  else i.low * d < n * i.unit ∧ n * i.unit < i.high * d

/-- The `k`-th power of ten. -/
def tenTo (k : Nat) : Nat := Nat.pow 10 k

/-- The decimal exponent of the first digit of `mid / unit`. Every positive double is at least
    10^(−324), so the number scaled by 10^400 has a whole part with that many more digits. -/
def Interval.magnitude (i : Interval) : Int :=
  ((Radix.digits 10 (i.mid * tenTo 400 / i.unit)).length : Int) - 401

/-- The neighbours of the number on the grid of multiples of 10^`k` that lie in the interval: the
    better one, if any. -/
def Interval.onGrid? (i : Interval) (k : Int) : Option Scientific :=
  let up := tenTo k.toNat
  let down := tenTo (-k).toNat
  let below := i.mid * down / (i.unit * up)
  let inside (c : Nat) : Bool := i.contains (c * up) down
  let twice := 2 * i.mid * down
  let half := (2 * below + 1) * up * i.unit
  match inside below, inside (below + 1) with
  | true, true =>
    if twice < half ∨ (twice = half ∧ below % 2 = 0) then some ⟨below, k⟩
    else some ⟨below + 1, k⟩
  | true, false => some ⟨below, k⟩
  | false, true => some ⟨below + 1, k⟩
  | false, false => none

/-- The first grid with a hit, among those of `digits`, `digits + 1`, … digits. -/
def Interval.search (i : Interval) : (tries digits : Nat) → Option Scientific
  | 0, _ => none
  | tries + 1, digits =>
    match i.onGrid? (i.magnitude - digits + 1) with
    | some s => some s
    | none => search i tries (digits + 1)

/-- Moves the zeros at the end of a coefficient into the exponent; a coefficient has at most
    `count` of them. -/
def Scientific.normalize : (count : Nat) → Scientific → Scientific
  | 0, s => s
  | count + 1, s =>
    if s.coefficient ≠ 0 ∧ s.coefficient % 10 = 0 then
      normalize count ⟨s.coefficient / 10, s.exponent + 1⟩
    else s

/-- The shortest decimal of the absolute value of a double other than zero. Seventeen digits always
    suffice. -/
def shortest (x : Double) : Scientific :=
  match (Interval.ofDouble x).search 17 1 with
  | some s => s.normalize 20
  | none => ⟨x.significand, 0⟩

end LedgerWire.Decimal
