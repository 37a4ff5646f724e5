import LedgerWire.Derivation

set_option autoImplicit false

/-! # When an address is derived

A seed-derived address needs a seed that is not too long. A program-derived address needs not too
many seeds, none of which is too long, and an address that is free. Each is then the hash of one
message. -/

namespace LedgerWire.Scheme

variable (scheme : Scheme)

/-! ## Seed-derived addresses -/

/-- The message that is hashed for a seed-derived address. -/
def seedMessage (base : Address) (seed : String) (owner : Address) : Bytes :=
  base.bytes ++ Bytes.ofText seed ++ owner.bytes

theorem deriveWithSeed_eq_ok_iff (base : Address) (seed : String) (owner address : Address) :
    scheme.deriveWithSeed base seed owner = .ok address ↔
      seed.utf8ByteSize ≤ 32 ∧ scheme.digest (seedMessage base seed owner) = address := by
  unfold deriveWithSeed checkSeedSize
  by_cases hlong : seed.utf8ByteSize > maxSeedSize
  · have hrefused : ¬seed.utf8ByteSize ≤ 32 := Nat.not_le.2 hlong
    simp [hlong, hrefused, bind, Except.bind]
  · have haccepted : seed.utf8ByteSize ≤ 32 := Nat.not_lt.1 hlong
    simp [hlong, haccepted, bind, Except.bind, pure, Except.pure, seedMessage]

/-! ## Program-derived addresses -/

variable (seeds : List Bytes) (program : Address)

/-- Whether a seed is longer than a seed may be. -/
def isLong (seed : Bytes) : Bool :=
  maxSeedSize < seed.length

theorem find?_isLong_eq_none_iff :
    seeds.find? isLong = none ↔ ∀ seed ∈ seeds, seed.length ≤ 32 := by
  simp only [List.find?_eq_none, isLong, decide_eq_true_eq, Nat.not_lt]
  rfl

theorem forM_checkSeedSize :
    (seeds.forM fun seed => checkSeedSize seed.length) =
      match seeds.find? isLong with
      | some seed => .error (.seedTooLong seed.length)
      | none => .ok () := by
  induction seeds with
  | nil => rfl
  | cons seed seeds ih =>
    change (checkSeedSize seed.length >>= fun _ => seeds.forM _) = _
    rw [ih, List.find?_cons]
    by_cases hlong : maxSeedSize < seed.length
    · simp only [checkSeedSize, isLong, hlong, decide_true, if_true]
      rfl
    · simp only [checkSeedSize, isLong, hlong, decide_false, if_false]
      rfl

/-- The seeds are counted, then measured, and only then hashed. -/
theorem createProgramAddress_eq :
    scheme.createProgramAddress seeds program =
      if maxSeeds < seeds.length then .error (.tooManySeeds seeds.length)
      else
        match seeds.find? isLong with
        | some seed => .error (.seedTooLong seed.length)
        | none =>
          if scheme.onCurve (scheme.digest (programMessage seeds program)) then
            .error .addressOnCurve
          else .ok (scheme.digest (programMessage seeds program)) := by
  unfold createProgramAddress
  rw [forM_checkSeedSize]
  by_cases hmany : maxSeeds < seeds.length
  · simp only [hmany, if_true]
    rfl
  · simp only [hmany, if_false]
    cases seeds.find? isLong with
    | some seed => rfl
    | none =>
      cases hcurve : scheme.onCurve (scheme.digest (programMessage seeds program)) <;> rfl

theorem createProgramAddress_eq_ok_iff (address : Address) :
    scheme.createProgramAddress seeds program = .ok address ↔
      (seeds.length ≤ 16 ∧ ∀ seed ∈ seeds, seed.length ≤ 32) ∧
        scheme.digest (programMessage seeds program) = address ∧
          scheme.onCurve address = false := by
  rw [createProgramAddress_eq, ← find?_isLong_eq_none_iff]
  by_cases hmany : maxSeeds < seeds.length
  · have hrefused : ¬seeds.length ≤ 16 := Nat.not_le.2 hmany
    simp [hmany, hrefused]
  · have haccepted : seeds.length ≤ 16 := Nat.not_lt.1 hmany
    rw [if_neg hmany]
    cases seeds.find? isLong with
    | some seed => simp
    | none =>
      cases hcurve : scheme.onCurve (scheme.digest (programMessage seeds program)) with
      | true =>
        simp only [if_true, reduceCtorEq, false_iff, not_and]
        rintro - rfl
        simp [hcurve]
      | false =>
        simp only [haccepted, Bool.false_eq_true, if_false, Except.ok.injEq, and_self, true_and]
        exact ⟨fun h => ⟨h, h ▸ hcurve⟩, And.left⟩

/-- All that accepted seeds leave open is whether their address is free. -/
theorem createProgramAddress_of_accepted (hcount : seeds.length ≤ 16)
    (hsize : ∀ seed ∈ seeds, seed.length ≤ 32) :
    scheme.createProgramAddress seeds program =
      if scheme.onCurve (scheme.digest (programMessage seeds program)) then .error .addressOnCurve
      else .ok (scheme.digest (programMessage seeds program)) := by
  have haccepted : ¬maxSeeds < seeds.length := Nat.not_lt.2 hcount
  rw [createProgramAddress_eq, if_neg haccepted, (find?_isLong_eq_none_iff seeds).2 hsize]

theorem createProgramAddress_ne_noValidBump :
    scheme.createProgramAddress seeds program ≠ .error .noValidBump := by
  rw [createProgramAddress_eq]
  split
  · simp
  · split
    · simp
    · split <;> simp

end LedgerWire.Scheme
