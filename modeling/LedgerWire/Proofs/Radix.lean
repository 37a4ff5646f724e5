import LedgerWire.Radix
import Mathlib.Algebra.Order.Group.Nat
import Mathlib.Data.List.Induction

set_option autoImplicit false

/-! # Laws of positional digits

Every number has exactly one digit string without a leading zero, and change of radix keeps the
number and the leading zeros. So changing the radix and changing it back gives the digits one
started with. -/

namespace LedgerWire.Radix

/-! ## Values -/

theorem value_nil (base : Nat) : value base [] = 0 := rfl

theorem value_concat (base : Nat) (ds : List Nat) (d : Nat) :
    value base (ds ++ [d]) = value base ds * base + d := by
  simp [value]

theorem value_replicate_zero_append (base count : Nat) (ds : List Nat) :
    value base (List.replicate count 0 ++ ds) = value base ds := by
  have hzeros : (List.replicate count 0).foldl (fun n d => n * base + d) 0 = 0 := by
    induction count with
    | zero => rfl
    | succ count ih => simpa [List.replicate_succ] using ih
  rw [value, List.foldl_append, hzeros]
  rfl

/-- A digit string stands for a number below the power of the base that its length says. -/
theorem value_lt (base : Nat) (ds : List Nat) (h : ∀ d ∈ ds, d < base) :
    value base ds < base ^ ds.length := by
  induction ds using List.reverseRecOn with
  | nil => simp [value_nil]
  | append_singleton ds d ih =>
    have hds : value base ds < base ^ ds.length := ih fun e he => h e (by simp [he])
    have hd : d < base := h d (by simp)
    rw [value_concat, List.length_append, List.length_singleton, Nat.pow_succ]
    calc value base ds * base + d
        < value base ds * base + base := by omega
      _ = (value base ds + 1) * base := by rw [Nat.add_mul, Nat.one_mul]
      _ ≤ base ^ ds.length * base := Nat.mul_le_mul_right base hds

/-! ## Digits -/

theorem digits_zero (base : Nat) : digits base 0 = [] := by
  rw [digits, digitsOnto, dif_pos (Or.inl rfl)]

/-- The last digit is the remainder, and the others are those of the quotient. -/
theorem digits_of_pos {base n : Nat} (hbase : 2 ≤ base) (hn : 0 < n) :
    digits base n = digits base (n / base) ++ [n % base] := by
  rw [digits, digitsOnto, dif_neg (by omega), digitsOnto_eq_append]

theorem value_digits {base : Nat} (hbase : 2 ≤ base) (n : Nat) :
    value base (digits base n) = n := by
  induction n using Nat.strongRecOn with
  | _ n ih =>
    rcases Nat.eq_zero_or_pos n with rfl | hn
    · rw [digits_zero, value_nil]
    · have hlt : n / base < n := Nat.div_lt_self hn hbase
      rw [digits_of_pos hbase hn, value_concat, ih _ hlt, Nat.mul_comm, Nat.div_add_mod]

theorem lt_of_mem_digits {base : Nat} (hbase : 2 ≤ base) (n : Nat) :
    ∀ d ∈ digits base n, d < base := by
  induction n using Nat.strongRecOn with
  | _ n ih =>
    intro d hd
    rcases Nat.eq_zero_or_pos n with rfl | hn
    · rw [digits_zero] at hd
      exact absurd hd List.not_mem_nil
    · have hlt : n / base < n := Nat.div_lt_self hn hbase
      rw [digits_of_pos hbase hn, List.mem_append, List.mem_singleton] at hd
      rcases hd with hd | rfl
      · exact ih _ hlt d hd
      · exact Nat.mod_lt n (by omega)

theorem digits_ne_nil {base n : Nat} (hbase : 2 ≤ base) (hn : 0 < n) : digits base n ≠ [] := by
  rw [digits_of_pos hbase hn]
  simp

theorem head?_digits_ne_zero {base : Nat} (hbase : 2 ≤ base) (n : Nat) :
    (digits base n).head? ≠ some 0 := by
  induction n using Nat.strongRecOn with
  | _ n ih =>
    rcases Nat.eq_zero_or_pos n with rfl | hn
    · rw [digits_zero]
      simp
    · have hlt : n / base < n := Nat.div_lt_self hn hbase
      rw [digits_of_pos hbase hn]
      rcases Nat.eq_zero_or_pos (n / base) with hq | hq
      · -- a single digit is the number itself
        have hmod : n % base = n := Nat.mod_eq_of_lt ((Nat.div_eq_zero_iff_lt (by omega)).1 hq)
        rw [hq, digits_zero, hmod]
        simp
        omega
      · obtain ⟨first, others, hfirst⟩ := List.exists_cons_of_ne_nil (digits_ne_nil hbase hq)
        have hne := ih _ hlt
        rw [hfirst] at hne ⊢
        exact hne

/-- A digit string without a leading zero is the one of its value. -/
theorem digits_value {base : Nat} (hbase : 2 ≤ base) (ds : List Nat) (h : ∀ d ∈ ds, d < base)
    (hhead : ds.head? ≠ some 0) : digits base (value base ds) = ds := by
  induction ds using List.reverseRecOn with
  | nil => exact digits_zero base
  | append_singleton ds d ih =>
    have hd : d < base := h d (by simp)
    have hds : digits base (value base ds) = ds := by
      apply ih
      · intro e he
        exact h e (List.mem_append_left _ he)
      · cases ds with
        | nil => simp
        | cons first others => exact hhead
    have hpos : 0 < value base (ds ++ [d]) := by
      rw [value_concat]
      rcases Nat.eq_zero_or_pos (value base ds) with hzero | hpos
      · -- the value in front is zero only if nothing stands there, and then `d` is the first digit
        rw [hzero, digits_zero] at hds
        subst hds
        have : d ≠ 0 := fun hzero => hhead (by simp [hzero])
        omega
      · have := Nat.mul_pos hpos (show 0 < base by omega)
        omega
    rw [digits_of_pos hbase hpos, value_concat, Nat.mul_add_mod_of_lt hd, Nat.mul_comm,
      Nat.mul_add_div (by omega), Nat.div_eq_of_lt hd, Nat.add_zero, hds]

theorem length_digits_le {base : Nat} (hbase : 2 ≤ base) {n k : Nat} (h : n < base ^ k) :
    (digits base n).length ≤ k := by
  induction k generalizing n with
  | zero =>
    have hn : n = 0 := by simpa using h
    rw [hn, digits_zero]
    exact Nat.zero_le 0
  | succ k ih =>
    rcases Nat.eq_zero_or_pos n with rfl | hn
    · rw [digits_zero]
      exact Nat.zero_le _
    · have hq : n / base < base ^ k := by
        rw [Nat.div_lt_iff_lt_mul (by omega), ← Nat.pow_succ]
        exact h
      rw [digits_of_pos hbase hn, List.length_append, List.length_singleton]
      exact Nat.succ_le_succ (ih hq)

/-! ## Change of radix -/

/-- A digit string is its leading zeros and the digits of its value. -/
theorem replicate_append_digits_value {base : Nat} (hbase : 2 ≤ base) (ds : List Nat)
    (h : ∀ d ∈ ds, d < base) :
    List.replicate (leadingZeros ds) 0 ++ digits base (value base ds) = ds := by
  induction ds with
  | nil => exact digits_zero base
  | cons d ds ih =>
    by_cases hd : d = 0
    · subst hd
      have hvalue : value base (0 :: ds) = value base ds :=
        value_replicate_zero_append base 1 ds
      have hzeros : leadingZeros (0 :: ds) = leadingZeros ds + 1 := by simp [leadingZeros]
      rw [hvalue, hzeros, List.replicate_succ, List.cons_append,
        ih fun e he => h e (List.mem_cons_of_mem _ he)]
    · have hzeros : leadingZeros (d :: ds) = 0 := by simp [leadingZeros, hd]
      rw [hzeros, List.replicate_zero, List.nil_append]
      exact digits_value hbase _ h (by simpa using hd)

theorem leadingZeros_replicate_append (count : Nat) (ds : List Nat) (h : ds.head? ≠ some 0) :
    leadingZeros (List.replicate count 0 ++ ds) = count := by
  induction count with
  | zero =>
    cases ds with
    | nil => rfl
    | cons d ds =>
      have hd : d ≠ 0 := by simpa using h
      simp [leadingZeros, hd]
  | succ count ih => simpa [List.replicate_succ, leadingZeros] using ih

theorem lt_of_mem_convert {target : Nat} (htarget : 2 ≤ target) (source : Nat) (ds : List Nat) :
    ∀ d ∈ convert source target ds, d < target := by
  intro d hd
  rw [convert, List.mem_append] at hd
  rcases hd with hd | hd
  · rw [List.eq_of_mem_replicate hd]
    omega
  · exact lt_of_mem_digits htarget _ d hd

/-- Changing the radix and changing it back changes nothing. -/
theorem convert_convert {source target : Nat} (hsource : 2 ≤ source) (htarget : 2 ≤ target)
    (ds : List Nat) (h : ∀ d ∈ ds, d < source) :
    convert target source (convert source target ds) = ds := by
  rw [convert.eq_def target, convert, value_replicate_zero_append, value_digits htarget,
    leadingZeros_replicate_append _ _ (head?_digits_ne_zero htarget _)]
  exact replicate_append_digits_value hsource ds h

/-- If numbers of up to `size` digits need at most `extra` digits more in the other radix, so do
    digit strings of that size, whatever zeros they start with. -/
theorem length_convert_le {source target size extra : Nat} (hsource : 2 ≤ source)
    (htarget : 2 ≤ target) (hpow : ∀ k ≤ size, source ^ k ≤ target ^ (k + extra)) (ds : List Nat)
    (h : ∀ d ∈ ds, d < source) (hsize : ds.length ≤ size) :
    (convert source target ds).length ≤ ds.length + extra := by
  have hsplit := replicate_append_digits_value hsource ds h
  generalize hk : (digits source (value source ds)).length = k
  have hlen : leadingZeros ds + k = ds.length := by
    rw [← hk]
    simpa using congrArg List.length hsplit
  -- the zeros in front stay as they are, so only the digits of the value count
  have hlt : value source ds < target ^ (k + extra) := by
    have hvalue := value_lt source _ (lt_of_mem_digits hsource (value source ds))
    rw [value_digits hsource, hk] at hvalue
    exact Nat.lt_of_lt_of_le hvalue (hpow k (by omega))
  have hdigits := length_digits_le htarget hlt
  rw [convert, List.length_append, List.length_replicate]
  omega

end LedgerWire.Radix
