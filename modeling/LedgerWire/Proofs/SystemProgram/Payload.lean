import LedgerWire.Proofs.Wire.FirstFault
import LedgerWire.SystemProgram.Payload

set_option autoImplicit false

/-! # What system payloads are read from

Reading the fields of a kind succeeds exactly on the fields of a payload of that kind, whatever
comes behind them, and reading a payload succeeds exactly behind the code of its kind. The fields of
each kind are listed in `Tag.layout`, and whatever is shown for each sort of field is shown for all
kinds by going through that list. -/

namespace LedgerWire.SystemProgram

open Wire

theorem Tag.ofCode_eq_ok_iff (code : UInt32) (tag : Tag) :
    ofCode code = .ok tag ↔ code = tag.code := by
  refine ⟨?_, ?_⟩
  · intro h
    unfold ofCode at h
    split at h
    · rename_i found hfound
      cases h
      have hcode := List.find?_some hfound
      exact (of_decide_eq_true hcode).symm
    · exact absurd h (by simp)
  · intro h
    obtain rfl := h
    exact ofCode_code tag

/-- The fields of a kind of instruction, in the order in which they are declared. -/
def Tag.layout : Tag → List FieldKind
  | .createAccount => [.number, .number, .address]
  | .assign => [.address]
  | .transfer => [.number]
  | .createAccountWithSeed => [.address, .seed, .number, .number, .address]
  | .advanceNonceAccount => []
  | .withdrawNonceAccount => [.number]
  | .initializeNonceAccount => [.address]
  | .authorizeNonceAccount => [.address]
  | .allocate => [.number]
  | .allocateWithSeed => [.address, .seed, .number, .address]
  | .assignWithSeed => [.address, .seed, .address]
  | .transferWithSeed => [.number, .seed, .address]
  | .upgradeNonceAccount => []

namespace Payload

/-- The seeds that a payload carries. -/
def seeds : Payload → List Seed
  | createAccountWithSeed _ seed _ _ _ => [seed]
  | allocateWithSeed _ seed _ _ => [seed]
  | assignWithSeed _ seed _ => [seed]
  | transferWithSeed _ seed _ => [seed]
  | _ => []

theorem readFields_sound (tag : Tag) (data rest : Bytes) (p : Payload)
    (h : readFields tag data = .ok p rest) : p.tag = tag ∧ data = p.fields ++ rest := by
  -- one case for each kind: the steps of the reader give the fields one after the other
  cases tag <;>
    simp only [readFields, bind_eq_ok_iff, pure_eq_ok_iff, readU64_eq_ok_iff,
      readAddress_eq_ok_iff, readSeed_eq_ok_iff] at h
  case createAccount =>
    obtain ⟨lamports, _, rfl, space, _, rfl, owner, _, rfl, rfl, rfl⟩ := h
    exact ⟨rfl, by simp [fields]⟩
  case createAccountWithSeed =>
    obtain ⟨base, _, rfl, seed, _, rfl, lamports, _, rfl, space, _, rfl, owner, _, rfl, rfl,
      rfl⟩ := h
    exact ⟨rfl, by simp [fields]⟩
  case allocateWithSeed =>
    obtain ⟨base, _, rfl, seed, _, rfl, space, _, rfl, owner, _, rfl, rfl, rfl⟩ := h
    exact ⟨rfl, by simp [fields]⟩
  case assignWithSeed =>
    obtain ⟨base, _, rfl, seed, _, rfl, owner, _, rfl, rfl, rfl⟩ := h
    exact ⟨rfl, by simp [fields]⟩
  case transferWithSeed =>
    obtain ⟨lamports, _, rfl, seed, _, rfl, owner, _, rfl, rfl, rfl⟩ := h
    exact ⟨rfl, by simp [fields]⟩
  case advanceNonceAccount | upgradeNonceAccount =>
    obtain ⟨rfl, rfl⟩ := h
    exact ⟨rfl, rfl⟩
  all_goals
    obtain ⟨a, _, rfl, rfl, rfl⟩ := h
    exact ⟨rfl, rfl⟩

theorem readFields_complete (p : Payload) (rest : Bytes) :
    readFields p.tag (p.fields ++ rest) = .ok p rest := by
  cases p <;>
    simp only [tag, fields, readFields, List.append_assoc, bind_apply, readU64_encode,
      readAddress_encode, readSeed_encode] <;>
    rfl

theorem readFields_eq_ok_iff (tag : Tag) (data rest : Bytes) (p : Payload) :
    readFields tag data = .ok p rest ↔ p.tag = tag ∧ data = p.fields ++ rest := by
  refine ⟨?_, ?_⟩
  · exact readFields_sound tag data rest p
  · intro h
    obtain ⟨rfl, rfl⟩ := h
    exact readFields_complete p rest

/-- What holds where no field is left, and still holds with a field of any sort in front, holds for
    the fields of every kind. -/
theorem readFields_of_layout {P : List FieldKind → Reader Payload → Prop}
    (hdone : ∀ p, P [] (pure p))
    (hnumber : ∀ kinds (next : UInt64 → Reader Payload), (∀ n, P kinds (next n)) →
      P (.number :: kinds) (readU64 >>= next))
    (haddress : ∀ kinds (next : Address → Reader Payload), (∀ a, P kinds (next a)) →
      P (.address :: kinds) (readAddress >>= next))
    (hseed : ∀ kinds (next : Seed → Reader Payload), (∀ s, P kinds (next s)) →
      P (.seed :: kinds) (readSeed >>= next))
    (tag : Tag) : P tag.layout (readFields tag) := by
  cases tag with
  | createAccount =>
    exact hnumber _ _ fun _ => hnumber _ _ fun _ => haddress _ _ fun _ => hdone _
  | createAccountWithSeed =>
    exact haddress _ _ fun _ => hseed _ _ fun _ => hnumber _ _ fun _ => hnumber _ _ fun _ =>
      haddress _ _ fun _ => hdone _
  | allocateWithSeed =>
    exact haddress _ _ fun _ => hseed _ _ fun _ => hnumber _ _ fun _ => haddress _ _ fun _ =>
      hdone _
  | assignWithSeed =>
    exact haddress _ _ fun _ => hseed _ _ fun _ => haddress _ _ fun _ => hdone _
  | transferWithSeed =>
    exact hnumber _ _ fun _ => hseed _ _ fun _ => haddress _ _ fun _ => hdone _
  | transfer | withdrawNonceAccount | allocate => exact hnumber _ _ fun _ => hdone _
  | assign | initializeNonceAccount | authorizeNonceAccount =>
    exact haddress _ _ fun _ => hdone _
  | advanceNonceAccount | upgradeNonceAccount => exact hdone _

/-- A payload is read exactly from its packed form. -/
theorem read_eq_ok_iff (data rest : Bytes) (p : Payload) :
    read data = .ok p rest ↔ data = p.pack ++ rest := by
  unfold read pack
  rw [bind_eq_ok_iff]
  refine ⟨?_, ?_⟩
  · intro h
    obtain ⟨code, mid, hcode, h⟩ := h
    rw [readU32_eq_ok_iff] at hcode
    cases htag : Tag.ofCode code with
    | ok tag =>
      rw [htag] at h
      obtain ⟨rfl, rfl⟩ := (readFields_eq_ok_iff tag mid rest p).1 h
      rw [hcode, (Tag.ofCode_eq_ok_iff code p.tag).1 htag, List.append_assoc]
    | error e =>
      rw [htag] at h
      exact absurd h (throw_ne_ok e p mid rest)
  · intro h
    obtain rfl := h
    refine ⟨p.tag.code, p.fields ++ rest, ?_, ?_⟩
    · rw [readU32_eq_ok_iff, List.append_assoc]
    · rw [Tag.ofCode_code]
      exact readFields_complete p rest

end Payload

end LedgerWire.SystemProgram
