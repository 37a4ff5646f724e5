import LedgerWire.Bytes
import Mathlib.Algebra.Order.Group.Nat

set_option autoImplicit false

/-! # Laws of digits and texts

Writing a number with `width` digits and reading it back keeps the number modulo 256 to the power
`width`, and what is read from some bytes is less than 256 to the power of their number. So a number
that fits has exactly one spelling of a given width, and a text has exactly one in UTF-8. -/

namespace LedgerWire.Bytes

/-! ## Little-endian digits -/

theorem toNatLE_ofNatLE (width n : Nat) : toNatLE (ofNatLE width n) = n % 256 ^ width := by
  induction width generalizing n with
  | zero => simp [ofNatLE, toNatLE, Nat.mod_one]
  | succ w ih =>
    have hb : (UInt8.ofNat (n % 256)).toNat = n % 256 := by
      simp
    rw [ofNatLE, toNatLE, ih, hb, Nat.pow_succ, Nat.mul_comm (256 ^ w) 256, Nat.mod_mul]

theorem toNatLE_lt (bytes : Bytes) : toNatLE bytes < 256 ^ bytes.length := by
  induction bytes with
  | nil => simp [toNatLE]
  | cons b bs ih =>
    have hlt : b.toNat < 256 := b.toNat_lt
    rw [toNatLE, List.length_cons, Nat.pow_succ]
    omega

/-- The digits of a number that fits are the only ones of their width that stand for it. -/
theorem toNatLE_eq_iff {bytes : Bytes} {width n : Nat} (hw : bytes.length = width)
    (hn : n < 256 ^ width) : toNatLE bytes = n ↔ bytes = ofNatLE width n := by
  constructor
  · intro h
    rw [← h, ← hw, ofNatLE_toNatLE]
  · intro h
    rw [h, toNatLE_ofNatLE, Nat.mod_eq_of_lt hn]

/-- Numbers that fit have different digits. -/
theorem ofNatLE_injective {width m n : Nat} (hm : m < 256 ^ width) (hn : n < 256 ^ width)
    (h : ofNatLE width m = ofNatLE width n) : m = n := by
  rw [← Nat.mod_eq_of_lt hm, ← toNatLE_ofNatLE, h, toNatLE_ofNatLE, Nat.mod_eq_of_lt hn]

/-! ## UTF-8 text -/

theorem toText?_eq_some_iff {bytes : Bytes} {text : String} :
    toText? bytes = some text ↔ bytes = ofText text := by
  unfold toText? String.fromUTF8?
  constructor
  · intro h
    split at h
    · rw [Option.some.injEq] at h
      subst h
      rfl
    · exact absurd h (by simp)
  · intro h
    subst h
    exact dif_pos text.isValidUTF8

theorem toText?_eq_none_iff (bytes : Bytes) :
    toText? bytes = none ↔ ∀ text, ofText text ≠ bytes := by
  rw [Option.eq_none_iff_forall_ne_some]
  exact forall_congr' fun text => not_congr (toText?_eq_some_iff.trans eq_comm)

theorem ofText_injective {s t : String} (h : ofText s = ofText t) : s = t := by
  have hread := toText?_eq_some_iff.2 (rfl : ofText s = ofText s)
  rw [h, toText?_eq_some_iff.2 rfl, Option.some.injEq] at hread
  exact hread.symm

theorem utf8ByteSize_ofList_of_ascii (cs : List Char) (h : ∀ c ∈ cs, c.utf8Size = 1) :
    (String.ofList cs).utf8ByteSize = cs.length := by
  show (cs.flatMap String.utf8EncodeChar).toByteArray.size = cs.length
  rw [List.size_toByteArray]
  induction cs with
  | nil => rfl
  | cons c cs ih =>
    obtain ⟨hc, hcs⟩ := List.forall_mem_cons.1 h
    rw [List.flatMap_cons, List.length_append, String.length_utf8EncodeChar, hc, ih hcs,
      List.length_cons, Nat.add_comm]

end LedgerWire.Bytes
