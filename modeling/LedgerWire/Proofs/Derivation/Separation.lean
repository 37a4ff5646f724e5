import LedgerWire.Proofs.Derivation.Address

set_option autoImplicit false

/-! # Which messages the two derivations share

Both kinds of addresses are hashes of one message, and nothing in front of the messages tells the
kinds apart. The message of a program-derived address ends with the marker, and that of a
seed-derived address ends with its owner, which is longer than the marker. So the owner alone
decides: one that does not end with the marker keeps the message apart from all messages of the
other kind, and for one that does the bytes in front of the marker can be cut into seeds and a
program. -/

namespace LedgerWire.Scheme

variable (base owner program : Address) (seed : String) (seeds : List Bytes)

theorem length_programMarker : programMarker.length = 21 := by
  decide

/-- A shared message shows in its owner. -/
theorem marker_suffix_of_message_eq
    (h : seedMessage base seed owner = programMessage seeds program) :
    programMarker <:+ owner.bytes := by
  have howner : owner.bytes <:+ seedMessage base seed owner :=
    List.suffix_append (base.bytes ++ Bytes.ofText seed) owner.bytes
  have hmarker : programMarker <:+ seedMessage base seed owner := by
    rw [h]
    exact List.suffix_append (seeds.flatten ++ program.bytes) programMarker
  refine List.suffix_of_suffix_length_le hmarker howner ?_
  rw [length_programMarker, owner.length_bytes]
  decide

/-- Enough bytes end with a program, and what is in front of it can be cut into two seeds. -/
theorem exists_seeds_program (bytes : Bytes) (hmin : 32 ≤ bytes.length) (hmax : bytes.length ≤ 96) :
    ∃ (seeds : List Bytes) (program : Address),
      (seeds.length ≤ 16 ∧ ∀ seed ∈ seeds, seed.length ≤ 32) ∧
        seeds.flatten ++ program.bytes = bytes := by
  have hprogram : (bytes.drop (bytes.length - 32)).length = 32 := by
    rw [List.length_drop]
    omega
  have hrest : (bytes.take (bytes.length - 32)).length ≤ 64 := by
    rw [List.length_take]
    omega
  generalize hsplit : bytes.take (bytes.length - 32) = rest at hrest
  refine ⟨[rest.take 32, rest.drop 32], ⟨_, hprogram⟩, ⟨by simp, ?_⟩, ?_⟩
  · intro seed hseed
    simp only [List.mem_cons, List.not_mem_nil, or_false] at hseed
    rcases hseed with rfl | rfl
    · exact List.length_take_le 32 rest
    · rw [List.length_drop]
      omega
  · have hflatten : [rest.take 32, rest.drop 32].flatten = rest := by
      simp
    rw [hflatten, ← hsplit]
    exact List.take_append_drop _ bytes

/-- An owner that ends with the marker gives its message away. -/
theorem exists_message_eq_of_marker_suffix (hseed : seed.utf8ByteSize ≤ 32)
    (h : programMarker <:+ owner.bytes) :
    ∃ (seeds : List Bytes) (program : Address),
      (seeds.length ≤ 16 ∧ ∀ seed ∈ seeds, seed.length ≤ 32) ∧
        seedMessage base seed owner = programMessage seeds program := by
  obtain ⟨front, hfront⟩ := h
  have hlength : front.length + 21 = 32 := by
    rw [← owner.length_bytes, ← hfront, List.length_append, length_programMarker]
  have htotal : (base.bytes ++ Bytes.ofText seed ++ front).length =
      32 + seed.utf8ByteSize + 11 := by
    rw [List.length_append, List.length_append, base.length_bytes, Bytes.length_ofText]
    omega
  obtain ⟨seeds, program, hseeds, hbytes⟩ :=
    exists_seeds_program (base.bytes ++ Bytes.ofText seed ++ front) (by omega) (by omega)
  refine ⟨seeds, program, hseeds, ?_⟩
  rw [programMessage, hbytes, seedMessage, ← hfront, List.append_assoc _ front]

/-- Unless its owner ends with the marker, a seed-derived address is hashed from a message that no
    program-derived address is hashed from, so an address of both kinds is a collision of the hash.
    The condition cannot be weakened. -/
theorem messages_separate (scheme : Scheme) (base owner : Address) (seed : String)
    (derived : Address) (hderived : scheme.deriveWithSeed base seed owner = .ok derived) :
    scheme.digest (seedMessage base seed owner) = derived ∧
      (¬programMarker <:+ owner.bytes → ∀ (seeds : List Bytes) (program : Address),
        seedMessage base seed owner ≠ programMessage seeds program ∧
          (scheme.createProgramAddress seeds program = .ok derived →
            scheme.digest (seedMessage base seed owner) =
              scheme.digest (programMessage seeds program))) ∧
      (programMarker <:+ owner.bytes → ∃ (seeds : List Bytes) (program : Address),
        (seeds.length ≤ 16 ∧ ∀ seed ∈ seeds, seed.length ≤ 32) ∧
          seedMessage base seed owner = programMessage seeds program) := by
  obtain ⟨hseed, hdigest⟩ := (scheme.deriveWithSeed_eq_ok_iff base seed owner derived).1 hderived
  refine ⟨hdigest, ?_, exists_message_eq_of_marker_suffix base owner seed hseed⟩
  intro howner seeds program
  refine ⟨fun h => howner (marker_suffix_of_message_eq base owner program seed seeds h), ?_⟩
  intro hcreated
  obtain ⟨-, hprogram, -⟩ :=
    (scheme.createProgramAddress_eq_ok_iff seeds program derived).1 hcreated
  rw [hdigest, hprogram]

/-- An owner that holds the marker, but not at its end. -/
theorem messages_separate_marker_in_front :
    Scheme.standard.deriveWithSeed .zero "h" ⟨programMarker ++ List.replicate 11 0, by decide⟩ =
        .ok (Scheme.standard.digest
          (seedMessage .zero "h" ⟨programMarker ++ List.replicate 11 0, by decide⟩)) ∧
      ¬programMarker <:+ programMarker ++ List.replicate 11 0 ∧
      ∀ (seeds : List Bytes) (program : Address),
        seedMessage .zero "h" ⟨programMarker ++ List.replicate 11 0, by decide⟩ ≠
          programMessage seeds program := by
  have hderived := (Scheme.standard.deriveWithSeed_eq_ok_iff .zero "h"
    ⟨programMarker ++ List.replicate 11 0, by decide⟩ _).2 ⟨by decide, rfl⟩
  have howner : ¬programMarker <:+ programMarker ++ List.replicate 11 0 := by decide
  refine ⟨hderived, howner, ?_⟩
  intro seeds program
  exact ((messages_separate _ _ _ _ _ hderived).2.1 howner seeds program).1

/-- With eleven zeros and the marker as its owner, a seed-derived address is hashed from the message
    of a program-derived one. -/
theorem messages_coincide_marked_owner :
    (∃ derived, Scheme.standard.deriveWithSeed .zero "h"
        ⟨List.replicate 11 0 ++ programMarker, by decide⟩ = .ok derived) ∧
      ([List.replicate 12 (0 : UInt8)].length ≤ 16 ∧
        ∀ seed ∈ [List.replicate 12 (0 : UInt8)], seed.length ≤ 32) ∧
      seedMessage .zero "h" ⟨List.replicate 11 0 ++ programMarker, by decide⟩ =
        programMessage [List.replicate 12 0]
          ⟨List.replicate 20 0 ++ Bytes.ofText "h" ++ List.replicate 11 0, by decide⟩ := by
  refine ⟨⟨_, (Scheme.standard.deriveWithSeed_eq_ok_iff _ _ _ _).2 ⟨by decide, rfl⟩⟩, ?_, ?_⟩
  · decide
  · decide

end LedgerWire.Scheme
