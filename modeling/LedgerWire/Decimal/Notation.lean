import LedgerWire.Decimal.Shortest

set_option autoImplicit false

/-! # Writing a decimal

Where the point goes and when an exponent is written is a matter of layout, held in a `Layout`
record. Written positionally, a number always shows a digit on both sides of its point; an exponent
always shows its sign. -/

namespace LedgerWire.Decimal

/-- The decisions of a number format. -/
structure Layout where
  /-- The largest number of digits before the point in positional notation. -/
  maxWhole : Int
  /-- The largest number of zeros right behind the point in positional notation. -/
  maxLeadingZeros : Int

/-- The decimal digits of a number; zero has the digit zero. -/
def naturalChars (n : Nat) : List Char :=
  if n = 0 then ['0'] else (Radix.digits 10 n).map fun d => Char.ofNat (48 + d)

/-- An integer in decimal, with a minus sign if it is negative. -/
def integerChars (n : Int) : List Char :=
  if n < 0 then '-' :: naturalChars n.natAbs else naturalChars n.natAbs

/-- An integer in decimal, with its sign. -/
def signedChars (n : Int) : List Char :=
  (if n < 0 then '-' else '+') :: naturalChars n.natAbs

/-- A positive decimal without zeros at its end, laid out. -/
def Scientific.chars (layout : Layout) (s : Scientific) : List Char :=
  let ds := naturalChars s.coefficient
  let point := ds.length + s.exponent
  let zeros (n : Int) : List Char := List.replicate n.toNat '0'
  if 0 ≤ s.exponent ∧ point ≤ layout.maxWhole then ds ++ zeros s.exponent ++ ['.', '0']
  else if 0 < point ∧ point ≤ layout.maxWhole then
    ds.take point.toNat ++ '.' :: ds.drop point.toNat
  else if -layout.maxLeadingZeros ≤ point ∧ point ≤ 0 then
    ['0', '.'] ++ zeros (-point) ++ ds
  else
    ds.take 1 ++ (if ds.length ≤ 1 then [] else '.' :: ds.drop 1) ++ 'e' :: signedChars (point - 1)

/-- A double, laid out with the fewest digits that read back as it. -/
def doubleChars (layout : Layout) (x : Double) : List Char :=
  let body := if x.significand = 0 then ['0', '.', '0'] else (shortest x).chars layout
  if x.isNegative then '-' :: body else body

end LedgerWire.Decimal
