set_option autoImplicit false

/-! # Positional digits and change of radix

A digit string stands for a number, most significant digit first. Key text carries more than the
number: every zero digit at the front is kept, one for one, when the radix changes. `convert` is
that change of radix, and both directions of Base58 are instances of it. -/

namespace LedgerWire.Radix

/-- The number that `digits` stand for in radix `base`, most significant digit first. -/
def value (base : Nat) (digits : List Nat) : Nat :=
  digits.foldl (fun n d => n * base + d) 0

/-- The digits of `n` in radix `base` put in front of `tail`; zero has no digits. -/
def digitsOnto (base n : Nat) (tail : List Nat) : List Nat :=
  if _h : n = 0 ∨ base ≤ 1 then tail else digitsOnto base (n / base) (n % base :: tail)
termination_by n
decreasing_by
  exact Nat.div_lt_self (by omega) (by omega)

/-- The digits of `n` in radix `base`, most significant first and without a leading zero. -/
def digits (base n : Nat) : List Nat :=
  digitsOnto base n []

/-- How many zero digits stand in front. -/
def leadingZeros (ds : List Nat) : Nat :=
  (ds.takeWhile (· == 0)).length

/-- Converts a digit string from radix `source` to radix `target`: the leading zeros stay as they
    are and the number behind them is spelled in the new radix. -/
def convert (source target : Nat) (ds : List Nat) : List Nat :=
  List.replicate (leadingZeros ds) 0 ++ digits target (value source ds)

/-- A hexadecimal digit in lower case. -/
def hexDigit (d : Nat) : Char :=
  if d < 10 then Char.ofNat (48 + d) else Char.ofNat (87 + d)

theorem digitsOnto_eq_append (base n : Nat) (tail : List Nat) :
    digitsOnto base n tail = digits base n ++ tail := by
  induction n using Nat.strongRecOn generalizing tail with
  | _ n ih =>
    unfold digits
    by_cases h : n = 0 ∨ base ≤ 1
    · rw [digitsOnto, dif_pos h, digitsOnto, dif_pos h, List.nil_append]
    · have hlt : n / base < n := Nat.div_lt_self (by omega) (by omega)
      rw [digitsOnto, dif_neg h, ih _ hlt, digitsOnto, dif_neg h, ih _ hlt [n % base],
        List.append_assoc, List.singleton_append]

end LedgerWire.Radix
