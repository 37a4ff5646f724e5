import LedgerWire.Json.Basic

set_option autoImplicit false

/-! # Numerals

A numeral is what a number looks like in JSON text: a sign, digits without a superfluous leading
zero, and then perhaps a fraction and an exponent. `Numeral.read?` splits one off the front of a
text and `Numeral.value?` says which number it is.

An integer that fits into 64 bits is taken exactly. Every other numeral becomes a double. Its digits
are gathered into a significand for as long as the significand fits into 64 bits without a sign; the
digits that do not fit are dropped, those before the point being made up for in the exponent. The
significand is then rounded to a double and scaled by powers of ten, so that the result may differ
in its last place from the nearest double. A result beyond the largest double is no number. -/

namespace LedgerWire.Json

/-- A number as it is written, digit by digit. -/
structure Numeral where
  isNegative : Bool
  whole : List Nat
  /-- The digits behind the point, none if there is no point. -/
  fraction : List Nat
  exponent : Option Int
deriving DecidableEq

namespace Numeral

/-! ## Reading -/

/-- The decimal digits in front of a text, and the rest. -/
def splitDigits (cs : List Char) : List Nat × List Char :=
  ((cs.takeWhile Char.isDigit).map fun c => c.toNat - 48, cs.dropWhile Char.isDigit)

/-- The digits of a whole part: one zero, or digits that do not start with a zero. -/
def readWhole? (cs : List Char) : Option (List Nat × List Char) :=
  match splitDigits cs with
  | ([], _) => none
  | (0 :: _ :: _, _) => none
  | split => some split

/-- A point and at least one digit, or nothing. -/
def readFraction? : List Char → Option (List Nat × List Char)
  | '.' :: cs =>
    match splitDigits cs with
    | ([], _) => none
    | split => some split
  | cs => some ([], cs)

/-- The digits of an exponent behind its sign. -/
def readExponentDigits? (isNegative : Bool) (cs : List Char) : Option (Option Int × List Char) :=
  match splitDigits cs with
  | ([], _) => none
  | (ds, rest) =>
    let n : Int := (ds.foldl (fun n d => n * 10 + d) 0 : Nat)
    some (some (if isNegative then -n else n), rest)

/-- The letter of an exponent, perhaps a sign, and at least one digit, or nothing. -/
def readExponent? : List Char → Option (Option Int × List Char)
  | c :: cs =>
    if c = 'e' ∨ c = 'E' then
      match cs with
      | '+' :: ds => readExponentDigits? false ds
      | '-' :: ds => readExponentDigits? true ds
      | ds => readExponentDigits? false ds
    else some (none, c :: cs)
  | [] => some (none, [])

/-- The numeral in front of a text, and the rest. -/
def read? (cs : List Char) : Option (Numeral × List Char) := do
  let (isNegative, cs) := match cs with
    | '-' :: cs => (true, cs)
    | cs => (false, cs)
  let (whole, cs) ← readWhole? cs
  let (fraction, cs) ← readFraction? cs
  let (exponent, cs) ← readExponent? cs
  return (⟨isNegative, whole, fraction, exponent⟩, cs)

/-! ## Value -/

/-- Appends digits to a number for as long as it fits into 64 bits; returns the digits from the
    first one that does not fit. -/
def gather (n : Nat) : List Nat → Nat × List Nat
  | [] => (n, [])
  | d :: ds => if n * 10 + d < UInt64.size then gather (n * 10 + d) ds else (n, d :: ds)

/-- The double next to 10^`k`, for `k` up to 308. -/
def powerOfTen (k : Nat) : Float :=
  Float.ofScientific 1 false k

/-- A significand below 2^64 times 10^`e`. Division is in two steps where one power of ten is too
    large for a double; below that nothing is left of the significand. -/
def scale (significand : Nat) (e : Int) : Float :=
  let f := (UInt64.ofNat significand).toFloat
  if significand = 0 then 0
  else if 0 ≤ e then if e ≤ 308 then f * powerOfTen e.toNat else f * powerOfTen 308 * powerOfTen 308
  else if -308 ≤ e then f / powerOfTen (-e).toNat
  else if -616 ≤ e then f / powerOfTen 308 / powerOfTen (-e - 308).toNat
  else 0

/-- The number that a numeral stands for, unless it is too large. -/
def value? (numeral : Numeral) : Option Number :=
  let (n, dropped) := gather 0 numeral.whole
  if numeral.fraction = [] ∧ numeral.exponent = none ∧ dropped = [] ∧ ¬ numeral.isNegative then
    some (.natural (UInt64.ofNat n))
  else if h : numeral.fraction = [] ∧ numeral.exponent = none ∧ dropped = [] ∧ 0 < n
      ∧ n ≤ 1 <<< 63 then
    some (.negative ⟨n - 1, by omega⟩)
  else
    let (significand, unread) := gather n numeral.fraction
    let e : Int := dropped.length - (numeral.fraction.length - unread.length : Nat)
    let f := scale significand (e + numeral.exponent.getD 0)
    (Double.ofFloat? (if numeral.isNegative then -f else f)).map .double

end Numeral

end LedgerWire.Json
