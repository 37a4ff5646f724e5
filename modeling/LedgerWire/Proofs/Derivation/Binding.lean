import LedgerWire.Bytes.Lemmas
import LedgerWire.Proofs.LookupTable.Creation

set_option autoImplicit false

/-! # What a derived address stands for

An address that is derived twice was hashed from one message or from two that collide, so what it
stands for is what can be read off its message. The message of a seed-derived address has a base and
an owner of fixed width around its seed and gives all three away. That of a program-derived address
gives the program away, but of its seeds only the bytes: how they were cut is lost. The seeds of a
table have fixed widths again, bump included, so that its message gives the authority and the slot
away. -/

namespace LedgerWire.Scheme

variable (scheme : Scheme)

/-! ## Collisions -/

/-- Two messages with the same hash. -/
def Collides (m m' : Bytes) : Prop :=
  m ≠ m' ∧ scheme.digest m = scheme.digest m'

theorem eq_or_collides {m m' : Bytes} {address : Address} (h : scheme.digest m = address)
    (h' : scheme.digest m' = address) : m = m' ∨ scheme.Collides m m' := by
  by_cases heq : m = m'
  · exact Or.inl heq
  · exact Or.inr ⟨heq, h.trans h'.symm⟩

/-! ## Messages -/

theorem seedMessage_injective {base base' owner owner' : Address} {seed seed' : String}
    (h : seedMessage base seed owner = seedMessage base' seed' owner') :
    (base, seed, owner) = (base', seed', owner') := by
  obtain ⟨hfront, howner⟩ :=
    List.append_inj' h (owner.length_bytes.trans owner'.length_bytes.symm)
  obtain ⟨hbase, hseed⟩ :=
    List.append_inj hfront (base.length_bytes.trans base'.length_bytes.symm)
  rw [Key.ext_bytes hbase, Bytes.ofText_injective hseed, Key.ext_bytes howner]

theorem programMessage_eq_iff (seeds seeds' : List Bytes) (program program' : Address) :
    programMessage seeds program = programMessage seeds' program' ↔
      program = program' ∧ seeds.flatten = seeds'.flatten := by
  refine ⟨?_, ?_⟩
  · intro h
    obtain ⟨hseeds, hprogram⟩ := List.append_inj' (List.append_cancel_right h)
      (program.length_bytes.trans program'.length_bytes.symm)
    exact ⟨Key.ext_bytes hprogram, hseeds⟩
  · rintro ⟨rfl, h⟩
    rw [programMessage, h, programMessage]

theorem flatten_tableSeeds_injective {authority authority' : Address} {slot slot' : UInt64}
    {bump bump' : UInt8}
    (h : (LookupTable.tableSeeds authority slot bump).flatten =
      (LookupTable.tableSeeds authority' slot' bump').flatten) :
    (authority, slot, bump) = (authority', slot', bump') := by
  simp only [LookupTable.tableSeeds, List.flatten_cons, List.flatten_nil, List.append_nil] at h
  obtain ⟨hauthority, h⟩ :=
    List.append_inj h (authority.length_bytes.trans authority'.length_bytes.symm)
  obtain ⟨hslot, hbump⟩ := List.append_inj' h rfl
  have hslot' := Bytes.ofNatLE_injective slot.toNat_lt slot'.toNat_lt hslot
  rw [Key.ext_bytes hauthority, UInt64.toNat_inj.1 hslot', List.cons.inj hbump |>.1]

/-! ## Seeds that are cut in two ways -/

/-- There are at most `count` seeds, and none is too long. -/
def Within (count : Nat) (seeds : List Bytes) : Prop :=
  seeds.length ≤ count ∧ ∀ seed ∈ seeds, seed.length ≤ 32

theorem Within.append_bump {count : Nat} {seeds : List Bytes} (h : Within count seeds)
    (bump : UInt8) : Within (count + 1) (seeds ++ [[bump]]) := by
  obtain ⟨hcount, hsize⟩ := h
  refine ⟨?_, ?_⟩
  · rw [List.length_append]
    exact Nat.succ_le_succ hcount
  · intro seed hseed
    rcases List.mem_append.1 hseed with hseed | hseed
    · exact hsize seed hseed
    · rw [List.mem_singleton.1 hseed]
      show 1 ≤ 32
      decide

variable {seeds seeds' : List Bytes} (program : Address)

theorem createProgramAddress_congr (h : Within 16 seeds) (h' : Within 16 seeds')
    (hflatten : seeds.flatten = seeds'.flatten) :
    scheme.createProgramAddress seeds program = scheme.createProgramAddress seeds' program := by
  have hmessage := (programMessage_eq_iff seeds seeds' program program).2 ⟨rfl, hflatten⟩
  rw [scheme.createProgramAddress_of_accepted seeds program h.1 h.2,
    scheme.createProgramAddress_of_accepted seeds' program h'.1 h'.2, hmessage]

theorem createProgramAddress_eq_ok_or_addressOnCurve (h : Within 16 seeds) :
    (∃ address, scheme.createProgramAddress seeds program = .ok address) ∨
      scheme.createProgramAddress seeds program = .error .addressOnCurve := by
  rw [scheme.createProgramAddress_of_accepted seeds program h.1 h.2]
  split
  · exact Or.inr rfl
  · exact Or.inl ⟨_, rfl⟩

/-- The bump comes behind all seeds, so every attempt of the search has the same bytes. -/
theorem findProgramAddress_congr (h : Within 15 seeds) (h' : Within 15 seeds')
    (hflatten : seeds.flatten = seeds'.flatten) :
    scheme.findProgramAddress seeds program = scheme.findProgramAddress seeds' program := by
  have hdecision : scheme.decision? seeds program = scheme.decision? seeds' program := by
    funext bump
    have hattempt : (seeds ++ [[bump]]).flatten = (seeds' ++ [[bump]]).flatten := by
      rw [List.flatten_append, hflatten, List.flatten_append]
    rw [decision?, decision?, scheme.createProgramAddress_congr program (h.append_bump bump)
      (h'.append_bump bump) hattempt]
  rw [findProgramAddress_eq_searchBump, findProgramAddress_eq_searchBump,
    searchBump_eq_findSome?, searchBump_eq_findSome?, hdecision]

/-! ## All derivations -/

/-- What two derivations of one address have in common, and which derivations have one address. -/
structure AddressesBind (scheme : Scheme) : Prop where
  /-- A seed-derived address stands for its base, seed and owner. -/
  seed_derived : ∀ base base' owner owner' seed seed' address,
    scheme.deriveWithSeed base seed owner = .ok address →
    scheme.deriveWithSeed base' seed' owner' = .ok address →
      (base, seed, owner) = (base', seed', owner') ∨
        scheme.Collides (seedMessage base seed owner) (seedMessage base' seed' owner')
  /-- A program-derived address stands for its program and the bytes of its seeds. -/
  program_derived : ∀ seeds seeds' program program' address,
    scheme.createProgramAddress seeds program = .ok address →
    scheme.createProgramAddress seeds' program' = .ok address →
      (program = program' ∧ seeds.flatten = seeds'.flatten) ∨
        scheme.Collides (programMessage seeds program) (programMessage seeds' program')
  /-- How these bytes are cut into seeds makes no difference. -/
  program_cut : ∀ seeds seeds' program, Within 16 seeds → Within 16 seeds' →
    seeds.flatten = seeds'.flatten →
      scheme.createProgramAddress seeds program = scheme.createProgramAddress seeds' program ∧
        ((∃ address, scheme.createProgramAddress seeds program = .ok address) ∨
          scheme.createProgramAddress seeds program = .error .addressOnCurve)
  /-- Nor does it to the search for a bump. -/
  search_cut : ∀ seeds seeds' program, Within 15 seeds → Within 15 seeds' →
    seeds.flatten = seeds'.flatten →
      scheme.findProgramAddress seeds program = scheme.findProgramAddress seeds' program
  /-- The address of a table stands for its authority and its slot, and has one bump. -/
  table_derived : ∀ authority authority' slot slot' address bump bump',
    LookupTable.deriveAddress scheme authority slot = .ok (address, bump) →
    LookupTable.deriveAddress scheme authority' slot' = .ok (address, bump') →
      ((authority, slot) = (authority', slot') ∧ bump = bump') ∨
        scheme.Collides
          (programMessage (LookupTable.tableSeeds authority slot bump) Address.lookupTableProgram)
          (programMessage (LookupTable.tableSeeds authority' slot' bump')
            Address.lookupTableProgram)

theorem eq_or_collides_of_createProgramAddress (seeds seeds' : List Bytes)
    (program program' address : Address)
    (h : scheme.createProgramAddress seeds program = .ok address)
    (h' : scheme.createProgramAddress seeds' program' = .ok address) :
    (program = program' ∧ seeds.flatten = seeds'.flatten) ∨
      scheme.Collides (programMessage seeds program) (programMessage seeds' program') := by
  obtain ⟨-, hdigest, -⟩ := (scheme.createProgramAddress_eq_ok_iff seeds program address).1 h
  obtain ⟨-, hdigest', -⟩ := (scheme.createProgramAddress_eq_ok_iff seeds' program' address).1 h'
  rw [← programMessage_eq_iff]
  exact scheme.eq_or_collides hdigest hdigest'

/-- One address that is derived in two ways is derived from the same parts, up to how seeds are cut,
    or shows two messages that collide. -/
theorem addresses_bind : AddressesBind scheme where
  seed_derived base base' owner owner' seed seed' address h h' := by
    obtain ⟨-, hdigest⟩ := (scheme.deriveWithSeed_eq_ok_iff base seed owner address).1 h
    obtain ⟨-, hdigest'⟩ := (scheme.deriveWithSeed_eq_ok_iff base' seed' owner' address).1 h'
    exact (scheme.eq_or_collides hdigest hdigest').imp_left seedMessage_injective
  program_derived := scheme.eq_or_collides_of_createProgramAddress
  program_cut seeds seeds' program h h' hflatten :=
    ⟨scheme.createProgramAddress_congr program h h' hflatten,
      scheme.createProgramAddress_eq_ok_or_addressOnCurve program h⟩
  search_cut seeds seeds' program h h' hflatten :=
    scheme.findProgramAddress_congr program h h' hflatten
  table_derived authority authority' slot slot' address bump bump' h h' := by
    -- each search ends with an attempt that leads to the address
    obtain ⟨hattempt, -⟩ := (LookupTable.deriveAddress_eq_ok_iff scheme _ _ address bump).1 h
    obtain ⟨hattempt', -⟩ := (LookupTable.deriveAddress_eq_ok_iff scheme _ _ address bump').1 h'
    refine (scheme.eq_or_collides_of_createProgramAddress _ _ _ _ _ hattempt hattempt').imp_left ?_
    rintro ⟨-, hflatten⟩
    cases flatten_tableSeeds_injective hflatten
    exact ⟨rfl, rfl⟩

/-- One seed of two bytes and two seeds of one byte. -/
theorem addresses_bind_two_cuts :
    Within 15 [Bytes.ofText "ab"] ∧ Within 15 [Bytes.ofText "a", Bytes.ofText "b"] ∧
      Scheme.standard.findProgramAddress [Bytes.ofText "ab"] Address.lookupTableProgram =
        Scheme.standard.findProgramAddress [Bytes.ofText "a", Bytes.ofText "b"]
          Address.lookupTableProgram := by
  have hone : Within 15 [Bytes.ofText "ab"] := by
    refine ⟨by decide, ?_⟩
    decide
  have htwo : Within 15 [Bytes.ofText "a", Bytes.ofText "b"] := by
    refine ⟨by decide, ?_⟩
    decide
  exact ⟨hone, htwo, (addresses_bind Scheme.standard).search_cut _ _ _ hone htwo (by decide)⟩

end LedgerWire.Scheme
