import LedgerWire.Proofs.Wire.Exact

set_option autoImplicit false

/-! # Readers on data that goes on

A reader looks at no more bytes than it needs. So what it has made of some data it makes of any data
that starts so, a success as well as a refusal; only the report that bytes are missing is one that
more bytes can make untrue. `Incremental` says how many it takes: such a report stands, with the
bytes that are left counted anew, until there are as many as were needed. Reading one thing after
another keeps this, so it is shown for each primitive and then read off for whatever is built from
them. -/

namespace LedgerWire

namespace CodecError

/-- What an error becomes when `extra` more bytes are there and do not help. -/
def after (extra : Nat) : CodecError → CodecError
  | truncatedInput needed remaining => truncatedInput needed (remaining + extra)
  | e => e

/-- An error that `extra` more bytes do not help. Only missing bytes can be made up for, and only by
    as many as are missing. -/
def Outlasts (extra : Nat) : CodecError → Prop
  | truncatedInput needed remaining => remaining + extra < needed
  | _ => True

/-- An error other than that of missing bytes. -/
def IsFinal (e : CodecError) : Prop :=
  ∀ needed remaining, e ≠ truncatedInput needed remaining

theorem IsFinal.after_eq {e : CodecError} (h : e.IsFinal) (extra : Nat) : e.after extra = e := by
  cases e with
  | truncatedInput needed remaining => exact absurd rfl (h needed remaining)
  | _ => rfl

theorem IsFinal.outlasts {e : CodecError} (h : e.IsFinal) (extra : Nat) : e.Outlasts extra := by
  cases e with
  | truncatedInput needed remaining => exact absurd rfl (h needed remaining)
  | _ => trivial

end CodecError

namespace Wire

variable {α β : Type}

/-- What was read from some data is read from all data that starts with it, and what was refused is
    refused there, unless bytes were missing and are there now. -/
structure Incremental (read : Reader α) : Prop where
  of_ok : ∀ data a rest, read data = .ok a rest →
    ∀ more, read (data ++ more) = .ok a (rest ++ more)
  of_error : ∀ data e left, read data = .error e left →
    e.Outlasts 0 ∧ ∀ more : Bytes, e.Outlasts more.length →
      read (data ++ more) = .error (e.after more.length) (left ++ more)

/-! ## Steps -/

theorem pure_incremental (a : α) : Incremental (pure a) where
  of_ok data b rest h more := by
    obtain ⟨rfl, rfl⟩ := (pure_eq_ok_iff a b data rest).1 h
    rfl
  of_error data e left h := by
    cases h

theorem throw_incremental {e : CodecError} (he : e.IsFinal) :
    Incremental (throw e : Reader α) where
  of_ok data a rest h := absurd h (throw_ne_ok e a data rest)
  of_error data e' left h := by
    cases h
    refine ⟨he.outlasts 0, ?_⟩
    intro more _
    rw [he.after_eq]
    rfl

/-- Reading on where an incremental read stopped. -/
theorem Incremental.bind {read : Reader α} {next : α → Reader β} (h : Incremental read)
    (hnext : ∀ a, Incremental (next a)) : Incremental (read >>= next) where
  of_ok data b rest hdata more := by
    obtain ⟨a, mid, hread, hmid⟩ := (bind_eq_ok_iff read next data rest b).1 hdata
    rw [bind_apply, h.of_ok data a mid hread more]
    exact (hnext a).of_ok mid b rest hmid more
  of_error data e left hdata := by
    rw [bind_apply] at hdata
    cases hread : read data with
    | ok a mid =>
      rw [hread] at hdata
      obtain ⟨hzero, hmore⟩ := (hnext a).of_error mid e left hdata
      refine ⟨hzero, ?_⟩
      intro more hlasts
      rw [bind_apply, h.of_ok data a mid hread more]
      exact hmore more hlasts
    | error e' left' =>
      rw [hread] at hdata
      cases hdata
      obtain ⟨hzero, hmore⟩ := h.of_error data e left hread
      refine ⟨hzero, ?_⟩
      intro more hlasts
      rw [bind_apply, hmore more hlasts]

/-! ## Primitives -/

theorem not_le_length_append {data more : Bytes} {needed : Nat}
    (h : data.length + more.length < needed) : ¬ needed ≤ (data ++ more).length := by
  rw [List.length_append]
  exact Nat.not_le_of_lt h

theorem take_incremental (count : Nat) : Incremental (take count) where
  of_ok data bytes rest h more := by
    obtain ⟨hlen, rfl⟩ := (take_eq_ok_iff count data bytes rest).1 h
    exact (take_eq_ok_iff _ _ _ _).2 ⟨hlen, List.append_assoc _ _ _⟩
  of_error data e left h := by
    unfold take at h
    split at h
    · exact absurd h (by simp)
    · rename_i hshort
      cases h
      refine ⟨Nat.lt_of_not_le hshort, ?_⟩
      intro more hlasts
      have hstill := not_le_length_append hlasts
      rw [take, if_neg hstill, List.length_append]
      rfl

theorem readU8_incremental : Incremental readU8 :=
  (take_incremental 1).bind fun _ => pure_incremental _

theorem readU32_incremental : Incremental readU32 :=
  (take_incremental 4).bind fun _ => pure_incremental _

theorem readU64_incremental : Incremental readU64 :=
  (take_incremental 8).bind fun _ => pure_incremental _

theorem readAddress_incremental : Incremental readAddress where
  of_ok data address rest h more := by
    rw [readAddress_eq_ok_iff] at h ⊢
    rw [h, List.append_assoc]
  of_error data e left h := by
    unfold readAddress at h
    split at h
    · exact absurd h (by simp)
    · rename_i hshort
      cases h
      refine ⟨Nat.lt_of_not_le hshort, ?_⟩
      intro more hlasts
      have hstill := not_le_length_append hlasts
      rw [readAddress, dif_neg hstill, List.length_append]
      rfl

theorem readText_incremental : Incremental readText where
  of_ok data text rest h more := by
    rw [readText_eq_ok_iff] at h ⊢
    obtain ⟨hlt, rfl⟩ := h
    exact ⟨hlt, List.append_assoc _ _ _⟩
  of_error data e left h := by
    unfold readText at h
    split at h
    · -- the size in front of the text is cut off
      rename_i hsize
      cases h
      obtain ⟨hzero, hmore⟩ := readU64_incremental.of_error _ _ _ hsize
      refine ⟨hzero, ?_⟩
      intro more hlasts
      rw [readText, hmore more hlasts]
    · rename_i size mid hsize
      have hagain := readU64_incremental.of_ok _ _ _ hsize
      split at h
      · rename_i hle
        split at h
        · exact absurd h (by simp)
        · -- all of the text is there, and more bytes do not make it another one
          rename_i hinvalid
          cases h
          refine ⟨trivial, ?_⟩
          intro more _
          have hlonger : size.toNat ≤ (mid ++ more).length := by
            rw [List.length_append]
            exact Nat.le_add_right_of_le hle
          rw [readText, hagain more]
          simp only [if_pos hlonger, List.take_append_of_le_length hle, hinvalid]
          rfl
      · -- the text is shorter than its size says
        rename_i hshort
        cases h
        refine ⟨Nat.lt_of_not_le hshort, ?_⟩
        intro more hlasts
        have hstill := not_le_length_append hlasts
        rw [readText, hagain more]
        simp only [if_neg hstill]
        rw [List.length_append]
        rfl

theorem isFinal_of_seed_ofText {text : String} {e : CodecError} (h : Seed.ofText text = .error e) :
    e.IsFinal := by
  unfold Seed.ofText at h
  split at h
  · exact absurd h (by simp)
  · cases h
    intro needed remaining
    simp

theorem readSeed_incremental : Incremental readSeed where
  of_ok data seed rest h more := by
    rw [readSeed_eq_ok_iff] at h ⊢
    rw [h, List.append_assoc]
  of_error data e left h := by
    unfold readSeed at h
    split at h
    · rename_i htext
      cases h
      obtain ⟨hzero, hmore⟩ := readText_incremental.of_error _ _ _ htext
      refine ⟨hzero, ?_⟩
      intro more hlasts
      rw [readSeed, hmore more hlasts]
    · rename_i text mid htext
      have hagain := readText_incremental.of_ok _ _ _ htext
      split at h
      · exact absurd h (by simp)
      · rename_i hlong
        cases h
        have hfinal := isFinal_of_seed_ofText hlong
        refine ⟨hfinal.outlasts 0, ?_⟩
        intro more _
        rw [readSeed, hagain more, hfinal.after_eq]
        simp only [hlong]

theorem readAddresses_incremental (count : Nat) : Incremental (readAddresses count) := by
  induction count with
  | zero => exact pure_incremental []
  | succ count ih =>
    exact readAddress_incremental.bind fun _ => ih.bind fun _ => pure_incremental _

end Wire

end LedgerWire
