import LedgerWire.Key

set_option autoImplicit false

/-! # What can go wrong on the binary side

One cause for each way in which an instruction cannot be read or an address cannot be derived. The
wording is kept apart, in `CodecError.message`. -/

namespace LedgerWire

/-- Why bytes could not be read as an instruction, or an address could not be derived. -/
inductive CodecError where
  /-- A field needs more bytes than are left. -/
  | truncatedInput (needed remaining : Nat)
  /-- The bytes of a text are not UTF-8. -/
  | invalidUtf8
  /-- No instruction has this tag. -/
  | unknownInstructionTag (tag : UInt32)
  /-- The instruction is addressed to another program. -/
  | wrongProgram (expected found : Address)
  /-- A seed is longer than a seed may be. -/
  | seedTooLong (size : Nat)
  /-- More seeds than an address may be derived from. -/
  | tooManySeeds (count : Nat)
  /-- The derived address could be somebody's public key. -/
  | addressOnCurve
  /-- Every bump leads to an address on the curve. -/
  | noValidBump
  /-- The instruction lists fewer accounts than its layout has. -/
  | notEnoughAccounts (expected found : Nat)
  /-- An instruction of another kind than the one asked for. -/
  | unexpectedInstruction (expected found : UInt32)
  /-- A text or byte string that is no key. -/
  | invalidAddress (cause : KeyError)
deriving DecidableEq

/-- What a reader of the error is told. -/
def CodecError.message : CodecError → String
  | .truncatedInput needed remaining =>
    "Truncated input: needed " ++ toString needed ++ " bytes, " ++ toString remaining
      ++ " remaining"
  | .invalidUtf8 => "String bytes are not valid UTF-8"
  | .unknownInstructionTag tag => "Unknown instruction tag " ++ toString tag.toNat
  | .wrongProgram expected found =>
    "Instruction belongs to program " ++ found.toText ++ ", expected " ++ expected.toText
  | .seedTooLong size => "Seed is " ++ toString size ++ " bytes, maximum is 32"
  | .tooManySeeds count => "Too many seeds: " ++ toString count ++ ", maximum is 16"
  | .addressOnCurve => "Derived address lies on the curve"
  | .noValidBump => "No bump in [0, 255] yields an off-curve address"
  | .notEnoughAccounts expected found =>
    "Instruction has " ++ toString found ++ " accounts, layout needs " ++ toString expected
  | .unexpectedInstruction expected found =>
    "Expected instruction tag " ++ toString expected.toNat ++ ", found " ++ toString found.toNat
  | .invalidAddress cause => "Invalid address: " ++ cause.message

/-! ## Steps that may fail -/

theorem except_bind_eq_ok_iff {ε α β : Type} (step : Except ε α) (next : α → Except ε β) (b : β) :
    (step >>= next) = .ok b ↔ ∃ a, step = .ok a ∧ next a = .ok b := by
  cases step with
  | error e => simp [bind, Except.bind]
  | ok a => simp [bind, Except.bind]

theorem except_bind_eq_error_iff {ε α β : Type} (step : Except ε α) (next : α → Except ε β)
    (e : ε) :
    (step >>= next) = .error e ↔ step = .error e ∨ ∃ a, step = .ok a ∧ next a = .error e := by
  cases step with
  | error e' => simp [bind, Except.bind]
  | ok a => simp [bind, Except.bind]

theorem except_map_eq_ok_iff {ε α β : Type} (step : Except ε α) (f : α → β) (b : β) :
    step.map f = .ok b ↔ ∃ a, step = .ok a ∧ f a = b := by
  cases step with
  | error e => simp [Except.map]
  | ok a => simp [Except.map]

end LedgerWire
