import LedgerWire.Proofs.Derivation.Address
import Mathlib.Data.List.Range

set_option autoImplicit false

/-! # The bump search finds the largest free bump

The search tries one bump after the other, from 255 down, and stops at the first attempt that says
anything but that the address lies on the curve. Whether the seeds are refused does not depend on
the bump: it is one seed more for every attempt, and never a long one. So a refusal shows at once,
and once the seeds are accepted all that an attempt can find out is whether its address is free. -/

namespace LedgerWire.Scheme

variable (scheme : Scheme) (seeds : List Bytes) (program : Address)

/-! ## One attempt -/

theorem find?_isLong_append_bump (bump : UInt8) :
    (seeds ++ [[bump]]).find? isLong = seeds.find? isLong := by
  have hbump : [[bump]].find? isLong = none := rfl
  rw [List.find?_append, hbump, Option.or_none]

/-- What an attempt decides about the search. An address on the curve decides nothing. -/
def decision? (bump : UInt8) : Option (Except CodecError (Address × UInt8)) :=
  match scheme.createProgramAddress (seeds ++ [[bump]]) program with
  | .ok address => some (.ok (address, bump))
  | .error .addressOnCurve => none
  | .error e => some (.error e)

theorem decision?_eq_none_iff (bump : UInt8) :
    scheme.decision? seeds program bump = none ↔
      scheme.createProgramAddress (seeds ++ [[bump]]) program = .error .addressOnCurve := by
  unfold decision?
  split <;> simp_all

theorem decision?_eq_some_ok_iff (bump bump' : UInt8) (address : Address) :
    scheme.decision? seeds program bump = some (.ok (address, bump')) ↔
      scheme.createProgramAddress (seeds ++ [[bump]]) program = .ok address ∧ bump = bump' := by
  unfold decision?
  split <;> simp_all

theorem decision?_ne_some_noValidBump (bump : UInt8) :
    scheme.decision? seeds program bump ≠ some (.error .noValidBump) := by
  have hattempt := scheme.createProgramAddress_ne_noValidBump (seeds ++ [[bump]]) program
  unfold decision?
  split <;> simp_all

/-! ## The order of the bumps -/

/-- The bumps below `bound` in the order in which they are tried. -/
def bumpsBelow (bound : Nat) : List UInt8 :=
  (List.range bound).reverse.map UInt8.ofNat

theorem bumpsBelow_succ (bump : Nat) :
    bumpsBelow (bump + 1) = UInt8.ofNat bump :: bumpsBelow bump := by
  rw [bumpsBelow, List.range_succ, List.reverse_append]
  rfl

theorem mem_bumpsBelow_256 (bump : UInt8) : bump ∈ bumpsBelow 256 := by
  refine List.mem_map.2 ⟨bump.toNat, ?_, UInt8.ofNat_toNat⟩
  exact List.mem_reverse.2 (List.mem_range.2 bump.toNat_lt)

theorem pairwise_bumpsBelow_256 : (bumpsBelow 256).Pairwise (· > ·) := by
  rw [bumpsBelow, List.pairwise_map, List.pairwise_reverse]
  refine List.pairwise_lt_range.imp_of_mem ?_
  intro a b _ hb hlt
  have hb256 : b < 256 := List.mem_range.1 hb
  exact (UInt8.ofNat_lt_iff_lt (hlt.trans hb256) hb256).2 hlt

/-- The bumps tried before a given one are those above it. -/
theorem mem_before_iff {before after : List UInt8} {bump : UInt8}
    (h : bumpsBelow 256 = before ++ bump :: after) (other : UInt8) :
    other ∈ before ↔ bump < other := by
  have hsorted := pairwise_bumpsBelow_256
  rw [h, List.pairwise_append] at hsorted
  obtain ⟨-, htail, hbefore⟩ := hsorted
  refine ⟨fun hmem => hbefore other hmem bump List.mem_cons_self, ?_⟩
  intro hlt
  have hmem := mem_bumpsBelow_256 other
  rw [h, List.mem_append, List.mem_cons] at hmem
  rcases hmem with hmem | rfl | hmem
  · exact hmem
  · exact absurd hlt (UInt8.lt_irrefl _)
  · exact absurd (UInt8.lt_trans hlt ((List.pairwise_cons.1 htail).1 other hmem))
      (UInt8.lt_irrefl _)

/-! ## The search -/

/-- The first decision counts. -/
theorem searchBump_eq_findSome? (bound : Nat) :
    scheme.searchBump seeds program bound =
      ((bumpsBelow bound).findSome? (scheme.decision? seeds program)).getD
        (.error .noValidBump) := by
  induction bound with
  | zero => rfl
  | succ bump ih =>
    rw [searchBump, bumpsBelow_succ, List.findSome?_cons, decision?]
    cases hattempt :
        scheme.createProgramAddress (seeds ++ [[UInt8.ofNat bump]]) program with
    | ok address => rfl
    | error e =>
      cases e with
      | addressOnCurve => exact ih
      | _ => rfl

theorem searchBump_eq_ok_iff (address : Address) (bump : UInt8) :
    scheme.searchBump seeds program 256 = .ok (address, bump) ↔
      scheme.createProgramAddress (seeds ++ [[bump]]) program = .ok address ∧
        ∀ larger, bump < larger →
          scheme.createProgramAddress (seeds ++ [[larger]]) program = .error .addressOnCurve := by
  have hfirst : scheme.searchBump seeds program 256 = .ok (address, bump) ↔
      (bumpsBelow 256).findSome? (scheme.decision? seeds program) =
        some (.ok (address, bump)) := by
    rw [searchBump_eq_findSome?]
    cases (bumpsBelow 256).findSome? (scheme.decision? seeds program) <;> simp
  rw [hfirst, List.findSome?_eq_some_iff]
  refine ⟨?_, ?_⟩
  · intro h
    obtain ⟨before, first, after, hsplit, hdecision, hnone⟩ := h
    obtain ⟨hok, rfl⟩ := (scheme.decision?_eq_some_ok_iff seeds program _ _ _).1 hdecision
    refine ⟨hok, ?_⟩
    intro larger hlarger
    rw [← decision?_eq_none_iff]
    exact hnone larger ((mem_before_iff hsplit larger).2 hlarger)
  · intro h
    obtain ⟨hok, hcurve⟩ := h
    obtain ⟨before, after, hsplit⟩ := List.append_of_mem (mem_bumpsBelow_256 bump)
    refine ⟨before, bump, after, hsplit, ?_, ?_⟩
    · exact (scheme.decision?_eq_some_ok_iff seeds program _ _ _).2 ⟨hok, rfl⟩
    · intro other hmem
      rw [decision?_eq_none_iff]
      exact hcurve other ((mem_before_iff hsplit other).1 hmem)

/-- Nothing is found exactly if every attempt ends on the curve. -/
theorem findSome?_decision?_eq_none_iff :
    (bumpsBelow 256).findSome? (scheme.decision? seeds program) = none ↔
      ∀ bump, scheme.createProgramAddress (seeds ++ [[bump]]) program = .error .addressOnCurve := by
  simp only [List.findSome?_eq_none_iff, decision?_eq_none_iff, mem_bumpsBelow_256, true_imp_iff]

theorem searchBump_eq_noValidBump_iff :
    scheme.searchBump seeds program 256 = .error .noValidBump ↔
      ∀ bump, scheme.createProgramAddress (seeds ++ [[bump]]) program = .error .addressOnCurve := by
  rw [searchBump_eq_findSome?, ← findSome?_decision?_eq_none_iff]
  cases hfirst : (bumpsBelow 256).findSome? (scheme.decision? seeds program) with
  | none => simp
  | some outcome =>
    obtain ⟨bump, -, hdecision⟩ := List.exists_of_findSome?_eq_some hfirst
    simp only [Option.getD_some, reduceCtorEq, iff_false]
    -- no attempt reports the failure of the whole search
    rintro rfl
    exact scheme.decision?_ne_some_noValidBump seeds program bump hdecision

/-! ## Refusals -/

theorem createProgramAddress_bump_of_many (hmany : 16 ≤ seeds.length) (bump : UInt8) :
    scheme.createProgramAddress (seeds ++ [[bump]]) program =
      .error (.tooManySeeds (seeds.length + 1)) := by
  have hlength : (seeds ++ [[bump]]).length = seeds.length + 1 := List.length_append
  have hcount : maxSeeds < seeds.length + 1 := Nat.lt_succ_of_le hmany
  rw [createProgramAddress_eq, hlength, if_pos hcount]

/-- Too many seeds are too many with every bump, so the count that is checked in front of the search
    is the one that the first attempt would report. -/
theorem findProgramAddress_eq_searchBump :
    scheme.findProgramAddress seeds program = scheme.searchBump seeds program 256 := by
  unfold findProgramAddress
  by_cases hmany : seeds.length ≥ maxSeeds
  · rw [if_pos hmany, searchBump, scheme.createProgramAddress_bump_of_many seeds program hmany]
  · rw [if_neg hmany]

theorem findProgramAddress_of_many (hmany : 16 ≤ seeds.length) :
    scheme.findProgramAddress seeds program = .error (.tooManySeeds (seeds.length + 1)) :=
  if_pos hmany

theorem findProgramAddress_of_long (hfew : seeds.length < 16) {seed : Bytes}
    (hlong : seeds.find? isLong = some seed) :
    scheme.findProgramAddress seeds program = .error (.seedTooLong seed.length) := by
  have hcount : ¬maxSeeds < (seeds ++ [[UInt8.ofNat 255]]).length := by
    rw [List.length_append]
    exact Nat.not_lt.2 hfew
  rw [findProgramAddress_eq_searchBump, searchBump, createProgramAddress_eq, if_neg hcount,
    find?_isLong_append_bump, hlong]

/-- Accepted seeds lead to an address or to none at all. -/
theorem findProgramAddress_of_accepted (hfew : seeds.length < 16)
    (hshort : seeds.find? isLong = none) :
    (∃ found, scheme.findProgramAddress seeds program = .ok found) ∨
      scheme.findProgramAddress seeds program = .error .noValidBump := by
  rw [findProgramAddress_eq_searchBump, searchBump_eq_findSome?]
  cases hfirst : (bumpsBelow 256).findSome? (scheme.decision? seeds program) with
  | none => exact Or.inr rfl
  | some outcome =>
    obtain ⟨bump, -, hdecision⟩ := List.exists_of_findSome?_eq_some hfirst
    have hcount : ¬maxSeeds < (seeds ++ [[bump]]).length := by
      rw [List.length_append]
      exact Nat.not_lt.2 hfew
    rw [decision?, createProgramAddress_eq, if_neg hcount, find?_isLong_append_bump, hshort]
      at hdecision
    cases hcurve : scheme.onCurve (scheme.digest (programMessage (seeds ++ [[bump]]) program)) with
    | true => simp [hcurve] at hdecision
    | false =>
      simp only [hcurve, Bool.false_eq_true, if_false, Option.some.injEq] at hdecision
      exact Or.inl ⟨_, hdecision.symm⟩

/-- The search is canonical: it is the first decision among the bumps from 255 down to 0, the bump
    found is the largest free one, and seeds are refused exactly if there is no room for a bump or
    one of them is too long. -/
theorem findProgramAddress_canonical :
    scheme.findProgramAddress seeds program =
        (((List.range 256).reverse.map UInt8.ofNat).findSome?
          (scheme.decision? seeds program)).getD (.error .noValidBump) ∧
      (∀ address bump, scheme.findProgramAddress seeds program = .ok (address, bump) ↔
        scheme.createProgramAddress (seeds ++ [[bump]]) program = .ok address ∧
          ∀ larger, bump < larger →
            scheme.createProgramAddress (seeds ++ [[larger]]) program = .error .addressOnCurve) ∧
      (∀ count, scheme.findProgramAddress seeds program = .error (.tooManySeeds count) ↔
        16 ≤ seeds.length ∧ count = seeds.length + 1) ∧
      (∀ size, scheme.findProgramAddress seeds program = .error (.seedTooLong size) ↔
        seeds.length ≤ 15 ∧
          ∃ seed, seeds.find? (fun s => 32 < s.length) = some seed ∧ size = seed.length) ∧
      scheme.findProgramAddress seeds program ≠ .error .addressOnCurve := by
  refine ⟨?_, ?_, ?_⟩
  · rw [findProgramAddress_eq_searchBump]
    exact scheme.searchBump_eq_findSome? seeds program 256
  · intro address bump
    rw [findProgramAddress_eq_searchBump]
    exact scheme.searchBump_eq_ok_iff seeds program address bump
  · change _ ∧ (∀ size, _ ↔ _ ∧ ∃ seed, seeds.find? isLong = some seed ∧ _) ∧ _
    rcases Nat.lt_or_ge seeds.length 16 with hfew | hmany
    · cases hlong : seeds.find? isLong with
      | some seed =>
        rw [scheme.findProgramAddress_of_long seeds program hfew hlong]
        simp [Nat.not_le.2 hfew, Nat.le_of_lt_succ hfew, eq_comm]
      | none =>
        rcases scheme.findProgramAddress_of_accepted seeds program hfew hlong with ⟨_, h⟩ | h
        · simp [h, Nat.not_le.2 hfew]
        · simp [h, Nat.not_le.2 hfew]
    · rw [scheme.findProgramAddress_of_many seeds program hmany]
      simp [hmany, Nat.not_le.2 (Nat.lt_of_succ_le hmany), eq_comm]

end LedgerWire.Scheme
