import LedgerWire.Proofs.Derivation.Address
import LedgerWire.Proofs.SystemProgram.Kinds
import LedgerWire.Proofs.SystemProgram.Refusal

set_option autoImplicit false

/-! # One limit for seeds

A text can become a seed in several places: it is made one, an address is derived from it, it is read
from bytes, alone or inside a payload. All of these places measure its encoded bytes and have the
same limit. A text that passes is the same seed everywhere, and an account that is created at the
address derived from it keeps base, seed and owner in its instruction, so that whoever decodes the
instruction derives the same address again (`Survives`). A text that does not pass is refused
everywhere with the same error (`RefusedEverywhere`). -/

namespace LedgerWire.SystemProgram

open Wire

/-! ## Payloads around a text -/

namespace Payload

/-- The fields of a payload with any text in the place of its seed. -/
def fieldsAround (text : String) : Payload → Bytes
  | createAccountWithSeed base _ lamports space owner =>
    encodeAddress base ++ encodeText text ++ encodeU64 lamports ++ encodeU64 space
      ++ encodeAddress owner
  | allocateWithSeed base _ space owner =>
    encodeAddress base ++ encodeText text ++ encodeU64 space ++ encodeAddress owner
  | assignWithSeed base _ owner =>
    encodeAddress base ++ encodeText text ++ encodeAddress owner
  | transferWithSeed lamports _ owner =>
    encodeU64 lamports ++ encodeText text ++ encodeAddress owner
  | payload => payload.fields

/-- The packed form of a payload with any text in the place of its seed. -/
def packAround (text : String) (payload : Payload) : Bytes :=
  encodeU32 payload.tag.code ++ payload.fieldsAround text

/-- A payload with another seed in the place of its own. -/
def holding (seed : Seed) : Payload → Payload
  | createAccountWithSeed base _ lamports space owner =>
    createAccountWithSeed base seed lamports space owner
  | allocateWithSeed base _ space owner => allocateWithSeed base seed space owner
  | assignWithSeed base _ owner => assignWithSeed base seed owner
  | transferWithSeed lamports _ owner => transferWithSeed lamports seed owner
  | payload => payload

theorem seeds_holding {payload : Payload} (h : payload.seeds ≠ []) (seed : Seed) :
    (payload.holding seed).seeds = [seed] := by
  cases payload <;> first | rfl | exact absurd rfl h

theorem pack_holding (payload : Payload) (seed : Seed) :
    (payload.holding seed).pack = payload.packAround seed.text := by
  cases payload <;> rfl

theorem unpack_packAround_of_le {payload : Payload} (hseeds : payload.seeds ≠ []) (seed : Seed)
    (rest : Bytes) :
    ∃ found, unpack (payload.packAround seed.text ++ rest) = .ok found ∧ found.seeds = [seed] := by
  refine ⟨payload.holding seed, ?_, seeds_holding hseeds seed⟩
  rw [unpack_eq_ok_iff, pack_holding]
  exact List.prefix_append _ _

/-- A text that is too long is the first fault of a payload that would be in order with a seed. -/
theorem firstFault_fieldsAround {payload : Payload} {text : String} (hseeds : payload.seeds ≠ [])
    (hfits : text.utf8ByteSize < UInt64.size) (hlong : maxSeedSize < text.utf8ByteSize)
    (rest : Bytes) :
    FirstFault payload.tag.layout (payload.fieldsAround text ++ rest)
      (.seedTooLong text.utf8ByteSize) := by
  have hfault : ∀ left, Unreadable .seed (encodeText text ++ left)
      (.seedTooLong text.utf8ByteSize) := fun left => .seedLong text left hfits hlong
  cases payload with
  | createAccountWithSeed base seed lamports space owner =>
    simp only [fieldsAround, List.append_assoc]
    exact .later (.address base) (.here (hfault _))
  | allocateWithSeed base seed space owner =>
    simp only [fieldsAround, List.append_assoc]
    exact .later (.address base) (.here (hfault _))
  | assignWithSeed base seed owner =>
    simp only [fieldsAround, List.append_assoc]
    exact .later (.address base) (.here (hfault _))
  | transferWithSeed lamports seed owner =>
    simp only [fieldsAround, List.append_assoc]
    exact .later (.number lamports) (.here (hfault _))
  | _ => exact absurd rfl hseeds

theorem unpack_packAround_of_lt {payload : Payload} {text : String} (hseeds : payload.seeds ≠ [])
    (hfits : text.utf8ByteSize < UInt64.size) (hlong : maxSeedSize < text.utf8ByteSize)
    (rest : Bytes) :
    unpack (payload.packAround text ++ rest) = .error (.seedTooLong text.utf8ByteSize) := by
  refine (unpack_eq_error_iff _ _).2 (.inr ⟨payload.tag.code, _, List.append_assoc _ _ _, ?_⟩)
  exact .inr ⟨payload.tag, rfl, firstFault_fieldsAround hseeds hfits hlong rest⟩

end Payload

/-! ## The two outcomes -/

variable (scheme : Scheme)

/-- The instruction that creates an account is decoded to the base, the seed and the owner that it
    was made from, and they derive the address of the account that it was decoded to. -/
def Survives (p : CreateAccountWithSeed) : Prop :=
  ∃ decoded : CreateAccountWithSeed,
    decodeCreateAccountWithSeed (Operation.createAccountWithSeed p).toInstruction = .ok decoded ∧
      (decoded.base, decoded.seed, decoded.owner) = (p.base, p.seed, p.owner) ∧
      scheme.deriveWithSeed decoded.base decoded.seed.text decoded.owner = .ok decoded.target

theorem survives_of_deriveWithSeed {p : CreateAccountWithSeed}
    (h : scheme.deriveWithSeed p.base p.seed.text p.owner = .ok p.target) : Survives scheme p := by
  have hdecode : decode (Operation.createAccountWithSeed p).toInstruction =
      .ok (.createAccountWithSeed p) :=
    (decode_eq_ok_iff _ _).2 ⟨rfl, List.prefix_refl _, Operation.matches_keys_toInstruction _⟩
  exact ⟨p, decodeAs_of_some hdecode rfl, rfl, h⟩

/-- The text is this seed in every place, and what is derived from it survives. -/
structure IsSeedEverywhere (text : String) (seed : Seed) : Prop where
  text_eq : seed.text = text
  ofText : Seed.ofText text = .ok seed
  createProgramAddress : ∀ (program : Address) (size : Nat),
    scheme.createProgramAddress [Bytes.ofText text] program ≠ .error (.seedTooLong size)
  readSeed : ∀ rest, Wire.readSeed (encodeText text ++ rest) = .ok seed rest
  unpack : ∀ payload : Payload, payload.seeds ≠ [] → ∀ rest, ∃ found,
    Payload.unpack (payload.packAround text ++ rest) = .ok found ∧ found.seeds = [seed]
  derived : ∀ (source base : Address) (lamports space : UInt64) (owner : Address),
    ∃ p : CreateAccountWithSeed,
      CreateAccountWithSeed.derived scheme source base seed lamports space owner = .ok p ∧
        scheme.deriveWithSeed base text owner = .ok p.target ∧
        p = ⟨source, p.target, base, seed, lamports, space, owner⟩ ∧ Survives scheme p

/-- The text is refused in every place for its size, alone or as the one seed that a payload or a
    program-derived address has. -/
structure RefusedEverywhere (text : String) : Prop where
  ofText : Seed.ofText text = .error (.seedTooLong text.utf8ByteSize)
  deriveWithSeed : ∀ base owner : Address,
    scheme.deriveWithSeed base text owner = .error (.seedTooLong text.utf8ByteSize)
  createProgramAddress : ∀ program : Address,
    scheme.createProgramAddress [Bytes.ofText text] program =
      .error (.seedTooLong text.utf8ByteSize)
  /-- A size in front of a text is a machine word. -/
  decode_readSeed : text.utf8ByteSize < UInt64.size → ∀ rest,
    Wire.decode readSeed (encodeText text ++ rest) = .error (.seedTooLong text.utf8ByteSize)
  unpack : text.utf8ByteSize < UInt64.size → ∀ payload : Payload, payload.seeds ≠ [] → ∀ rest,
    Payload.unpack (payload.packAround text ++ rest) = .error (.seedTooLong text.utf8ByteSize)

variable {text : String}

theorem isSeedEverywhere (h : text.utf8ByteSize ≤ 32) :
    IsSeedEverywhere scheme text ⟨text, h⟩ where
  text_eq := rfl
  ofText := Seed.ofText_text ⟨text, h⟩
  createProgramAddress program size := by
    have hsize : ∀ seed ∈ [Bytes.ofText text], seed.length ≤ 32 := by
      simpa [Bytes.length_ofText] using h
    rw [scheme.createProgramAddress_of_accepted _ _ (by simp) hsize]
    split_ifs <;> simp
  readSeed := readSeed_encode ⟨text, h⟩
  unpack payload hseeds := Payload.unpack_packAround_of_le hseeds ⟨text, h⟩
  derived source base lamports space owner := by
    have hderive : scheme.deriveWithSeed base text owner =
        .ok (scheme.digest (Scheme.seedMessage base text owner)) :=
      (scheme.deriveWithSeed_eq_ok_iff _ _ _ _).2 ⟨h, rfl⟩
    refine ⟨⟨source, _, base, ⟨text, h⟩, lamports, space, owner⟩, ?_, hderive, rfl,
      survives_of_deriveWithSeed scheme hderive⟩
    rw [CreateAccountWithSeed.derived, hderive]
    rfl

theorem refusedEverywhere (h : 32 < text.utf8ByteSize) : RefusedEverywhere scheme text where
  ofText := dif_neg (Nat.not_le_of_lt h)
  deriveWithSeed base owner := by
    have hcheck : checkSeedSize text.utf8ByteSize = .error (.seedTooLong text.utf8ByteSize) :=
      if_pos h
    rw [Scheme.deriveWithSeed, hcheck]
    rfl
  createProgramAddress program := by
    have hlong : Scheme.isLong (Bytes.ofText text) = true := by
      rw [Scheme.isLong, Bytes.length_ofText]
      exact decide_eq_true h
    have hfew : ¬maxSeeds < [Bytes.ofText text].length := by simp [maxSeeds]
    rw [Scheme.createProgramAddress_eq, if_neg hfew, List.find?_cons, hlong]
    dsimp only
    rw [Bytes.length_ofText]
  decode_readSeed hfits rest := decode_readSeed_of_unreadable (.seedLong text rest hfits h)
  unpack hfits payload hseeds rest := Payload.unpack_packAround_of_lt hseeds hfits h rest

/-- All places where a text can become a seed have the same limit, which is on its encoded bytes. -/
theorem seed_limit (text : String) :
    (text.utf8ByteSize ≤ 32 → ∃ seed, IsSeedEverywhere scheme text seed) ∧
      (32 < text.utf8ByteSize → RefusedEverywhere scheme text) :=
  ⟨fun h => ⟨⟨text, h⟩, isSeedEverywhere scheme h⟩, fun h => refusedEverywhere scheme h⟩

/-- Sixteen letters of two bytes each, which pass, and seventeen, which do not. -/
theorem seed_limit_accents :
    ("éééééééééééééééé".utf8ByteSize ≤ 32 ∧
        ∃ seed, IsSeedEverywhere .standard "éééééééééééééééé" seed) ∧
      32 < "éééééééééééééééée".utf8ByteSize ∧ RefusedEverywhere .standard "éééééééééééééééée" := by
  have hshort : "éééééééééééééééé".utf8ByteSize ≤ 32 := by decide
  have hlong : 32 < "éééééééééééééééée".utf8ByteSize := by decide
  exact ⟨⟨hshort, (seed_limit .standard _).1 hshort⟩, hlong, (seed_limit .standard _).2 hlong⟩

end LedgerWire.SystemProgram
