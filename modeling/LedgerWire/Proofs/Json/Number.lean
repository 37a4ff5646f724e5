import LedgerWire.Json.Printer
import LedgerWire.Json.Reader
import LedgerWire.Proofs.Radix

set_option autoImplicit false

/-! # Reading integers back

An integer is written without a leading zero, a point or an exponent, and so it is read as the
numeral with just its digits. The digits are gathered into the integer as long as it fits into 64
bits, which the integers of a JSON value do. -/

namespace LedgerWire

/-! ## Decimal digits -/

namespace Decimal

/-- The digits that are written for a number. -/
def naturalDigits (n : Nat) : List Nat :=
  if n = 0 then [0] else Radix.digits 10 n

theorem naturalChars_eq_map (n : Nat) :
    naturalChars n = (naturalDigits n).map fun d => Char.ofNat (48 + d) := by
  unfold naturalChars naturalDigits
  split <;> rfl

theorem lt_of_mem_naturalDigits (n : Nat) : ∀ d ∈ naturalDigits n, d < 10 := by
  unfold naturalDigits
  split
  · simp
  · exact Radix.lt_of_mem_digits (by decide) n

theorem value_naturalDigits (n : Nat) : Radix.value 10 (naturalDigits n) = n := by
  unfold naturalDigits
  split
  · rename_i h
    rw [h]
    rfl
  · exact Radix.value_digits (by decide) n

theorem naturalDigits_ne_nil (n : Nat) : naturalDigits n ≠ [] := by
  unfold naturalDigits
  split
  · simp
  · rename_i h
    exact Radix.digits_ne_nil (by decide) (Nat.pos_of_ne_zero h)

/-- What is written starts with a digit. -/
theorem exists_naturalChars_eq_cons (n : Nat) :
    ∃ d cs, d < 10 ∧ naturalChars n = Char.ofNat (48 + d) :: cs := by
  obtain ⟨d, ds, hds⟩ := List.exists_cons_of_ne_nil (naturalDigits_ne_nil n)
  have hd := lt_of_mem_naturalDigits n d (by simp [hds])
  exact ⟨d, _, hd, by rw [naturalChars_eq_map, hds, List.map_cons]⟩

/-- Only the number zero starts with the digit zero. -/
theorem naturalDigits_ne_zero_cons (n d : Nat) (ds : List Nat) :
    naturalDigits n ≠ 0 :: d :: ds := by
  unfold naturalDigits
  split
  · simp
  · intro h
    have hhead : (Radix.digits 10 n).head? ≠ some 0 := Radix.head?_digits_ne_zero (by decide) n
    rw [h] at hhead
    exact hhead rfl

theorem naturalDigits_of_lt {n : Nat} (h : n < 10) : naturalDigits n = [n] := by
  unfold naturalDigits
  split
  · rename_i hzero
    rw [hzero]
  · rename_i hne
    rw [Radix.digits_of_pos (by decide) (Nat.pos_of_ne_zero hne), Nat.div_eq_of_lt h,
      Radix.digits_zero, Nat.mod_eq_of_lt h, List.nil_append]

theorem naturalDigits_of_le {n : Nat} (h : 10 ≤ n) :
    naturalDigits n = naturalDigits (n / 10) ++ [n % 10] := by
  unfold naturalDigits
  rw [if_neg (by omega), if_neg (by omega), Radix.digits_of_pos (by decide) (by omega)]

/-- The decimal text of the standard library is the same. -/
theorem toDigits_eq_naturalChars (n : Nat) : Nat.toDigits 10 n = naturalChars n := by
  have hchar : ∀ d < 10, d.digitChar = Char.ofNat (48 + d) := by decide
  rw [naturalChars_eq_map]
  induction n using Nat.strongRecOn with
  | _ n ih =>
    rcases Nat.lt_or_ge n 10 with hlt | hge
    · rw [Nat.toDigits_of_lt_base hlt, naturalDigits_of_lt hlt, List.map_singleton, hchar n hlt]
    · -- both spellings end with the last digit
      have hmod : n % 10 < 10 := Nat.mod_lt n (by decide)
      rw [Nat.toDigits_of_base_le (by decide) hge, naturalDigits_of_le hge, ih (n / 10) (by omega),
        List.map_append, List.map_singleton, hchar _ hmod]

end Decimal

namespace Json

/-! ## The parts of a numeral -/

/-- Text behind a number with which the number does not go on. -/
def EndsNumber (rest : List Char) : Prop :=
  ∀ c ∈ rest.head?, c.isDigit = false ∧ c ≠ '.' ∧ c ≠ 'e' ∧ c ≠ 'E'

namespace Numeral

open Decimal (naturalChars naturalDigits)

theorem splitDigits_append (ds : List Nat) (h : ∀ d ∈ ds, d < 10) (rest : List Char)
    (hrest : EndsNumber rest) :
    splitDigits ((ds.map fun d => Char.ofNat (48 + d)) ++ rest) = (ds, rest) := by
  have hdigit : ∀ d < 10,
      (Char.ofNat (48 + d)).isDigit = true ∧ (Char.ofNat (48 + d)).toNat - 48 = d := by
    decide
  have hall : ∀ c ∈ ds.map fun d => Char.ofNat (48 + d), c.isDigit = true := by
    intro c hc
    obtain ⟨d, hd, rfl⟩ := List.mem_map.1 hc
    exact (hdigit d (h d hd)).1
  have hvalues : ((ds.map fun d => Char.ofNat (48 + d)).map fun c => c.toNat - 48) = ds := by
    rw [List.map_map]
    conv_rhs => rw [← List.map_id ds]
    apply List.map_congr_left
    intro d hd
    exact (hdigit d (h d hd)).2
  -- the scan stops in front of the rest, which starts with no digit
  have hstop : rest.takeWhile Char.isDigit = [] ∧ rest.dropWhile Char.isDigit = rest := by
    cases rest with
    | nil => exact ⟨rfl, rfl⟩
    | cons c cs =>
      have hc := (hrest c rfl).1
      simp [hc]
  rw [splitDigits, List.takeWhile_append_of_pos hall, List.dropWhile_append_of_pos hall, hstop.1,
    hstop.2, List.append_nil, hvalues]

theorem readWhole?_naturalChars (n : Nat) (rest : List Char) (hrest : EndsNumber rest) :
    readWhole? (naturalChars n ++ rest) = some (naturalDigits n, rest) := by
  rw [readWhole?, Decimal.naturalChars_eq_map,
    splitDigits_append _ (Decimal.lt_of_mem_naturalDigits n) rest hrest]
  split
  · rename_i h
    exact absurd (Prod.mk.inj h).1 (Decimal.naturalDigits_ne_nil n)
  · rename_i h
    exact absurd (Prod.mk.inj h).1 (Decimal.naturalDigits_ne_zero_cons n _ _)
  · rfl

theorem readFraction?_of_ends (rest : List Char) (hrest : EndsNumber rest) :
    readFraction? rest = some ([], rest) := by
  cases rest with
  | nil => rfl
  | cons c cs =>
    have hc := (hrest c rfl).2.1
    rw [readFraction?]
    intro cs' h
    exact hc (List.cons.inj h).1

theorem readExponent?_of_ends (rest : List Char) (hrest : EndsNumber rest) :
    readExponent? rest = some (none, rest) := by
  cases rest with
  | nil => rfl
  | cons c cs =>
    have hc := (hrest c rfl).2.2
    show (if c = 'e' ∨ c = 'E' then _ else _) = _
    rw [if_neg (by simp [hc])]

/-- The numeral of an integer. -/
def ofDigits (isNegative : Bool) (ds : List Nat) : Numeral :=
  ⟨isNegative, ds, [], none⟩

theorem read?_naturalChars (n : Nat) (rest : List Char) (hrest : EndsNumber rest) :
    read? (naturalChars n ++ rest) = some (ofDigits false (naturalDigits n), rest) := by
  -- the first character is a digit and so no sign
  have hsign : naturalChars n ++ rest ≠ '-' :: (naturalChars n ++ rest).tail := by
    obtain ⟨d, cs, hd, hcs⟩ := Decimal.exists_naturalChars_eq_cons n
    have hne : ∀ d < 10, Char.ofNat (48 + d) ≠ '-' := by decide
    rw [hcs]
    intro h
    exact hne d hd (List.cons.inj h).1
  unfold read?
  split
  rename_i isNegative cs heq
  split at heq
  · rename_i h
    rw [h] at hsign
    exact absurd rfl hsign
  · cases heq
    simp [readWhole?_naturalChars n rest hrest, readFraction?_of_ends rest hrest,
      readExponent?_of_ends rest hrest, ofDigits]

theorem read?_minus_naturalChars (n : Nat) (rest : List Char) (hrest : EndsNumber rest) :
    read? ('-' :: naturalChars n ++ rest) = some (ofDigits true (naturalDigits n), rest) := by
  unfold read?
  simp [readWhole?_naturalChars n rest hrest, readFraction?_of_ends rest hrest,
    readExponent?_of_ends rest hrest, ofDigits]

/-! ## The value of a numeral -/

theorem le_foldl_digits (n : Nat) (ds : List Nat) : n ≤ ds.foldl (fun n d => n * 10 + d) n := by
  induction ds generalizing n with
  | nil => exact Nat.le_refl n
  | cons d ds ih =>
    have := ih (n * 10 + d)
    rw [List.foldl_cons]
    omega

theorem gather_of_lt (n : Nat) (ds : List Nat)
    (h : ds.foldl (fun n d => n * 10 + d) n < UInt64.size) :
    gather n ds = (ds.foldl (fun n d => n * 10 + d) n, []) := by
  induction ds generalizing n with
  | nil => rfl
  | cons d ds ih =>
    rw [List.foldl_cons] at h ⊢
    have hfit : n * 10 + d < UInt64.size := Nat.lt_of_le_of_lt (le_foldl_digits _ ds) h
    rw [gather, if_pos hfit, ih _ h]

theorem gather_naturalDigits (n : Nat) (h : n < UInt64.size) :
    gather 0 (naturalDigits n) = (n, []) := by
  have hvalue := Decimal.value_naturalDigits n
  rw [Radix.value] at hvalue
  rw [gather_of_lt 0 _ (by rwa [hvalue]), hvalue]

theorem value?_natural (n : UInt64) :
    (ofDigits false (naturalDigits n.toNat)).value? = some (.natural n) := by
  rw [value?, ofDigits, gather_naturalDigits _ n.toNat_lt]
  dsimp only
  rw [if_pos ⟨rfl, rfl, rfl, Bool.false_ne_true⟩, UInt64.ofNat_toNat]

theorem value?_negative (n : Fin (1 <<< 63)) :
    (ofDigits true (naturalDigits (n.val + 1))).value? = some (.negative n) := by
  have hn : n.val < 1 <<< 63 := n.isLt
  have hsize : (1 <<< 63) + 1 ≤ UInt64.size := by decide
  have hnegative : ¬(([] : List Nat) = [] ∧ (none : Option Int) = none ∧ ([] : List Nat) = [] ∧
      ¬true = true) := by
    decide
  rw [value?, ofDigits, gather_naturalDigits _ (by omega)]
  dsimp only
  rw [if_neg hnegative, dif_pos ⟨rfl, rfl, rfl, by omega, by omega⟩]
  rfl

end Numeral

/-! ## Numbers -/

/-- The number is an integer. -/
def Number.IsInteger : Number → Prop
  | .double _ => False
  | _ => True

theorem readNumber_chars (n : Number) (hn : n.IsInteger) (rest : List Char)
    (hrest : EndsNumber rest) : readNumber (n.chars ++ rest) = (.number n, rest) := by
  cases n with
  | natural n =>
    rw [readNumber, Number.chars, Numeral.read?_naturalChars _ _ hrest]
    simp only [Numeral.value?_natural]
  | negative n =>
    rw [readNumber, Number.chars, Numeral.read?_minus_naturalChars _ _ hrest]
    simp only [Numeral.value?_negative]
  | double x => exact absurd hn id

end Json

end LedgerWire
