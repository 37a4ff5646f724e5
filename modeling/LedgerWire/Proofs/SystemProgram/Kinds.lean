import LedgerWire.Proofs.SystemProgram.Decoding

set_option autoImplicit false

/-! # One decoder for each kind

There is a decoder for each kind of instruction, and one for all of them. `Tag.decoder` gives the
decoders by kind, each with the type of what it reads. On an instruction that is refused they all
fail alike; otherwise exactly the decoder of the kind succeeds, and the others name the kind that
they were meant for and the code that stands at the front of the data. -/

namespace LedgerWire.SystemProgram

/-! ## Operations by kind -/

namespace Tag

/-- What an operation of a kind carries. -/
def Fields : Tag → Type
  | .createAccount => CreateAccount
  | .assign => Assign
  | .transfer => Transfer
  | .createAccountWithSeed => CreateAccountWithSeed
  | .advanceNonceAccount => AdvanceNonceAccount
  | .withdrawNonceAccount => WithdrawNonceAccount
  | .initializeNonceAccount => InitializeNonceAccount
  | .authorizeNonceAccount => AuthorizeNonceAccount
  | .allocate => Allocate
  | .allocateWithSeed => AllocateWithSeed
  | .assignWithSeed => AssignWithSeed
  | .transferWithSeed => TransferWithSeed
  | .upgradeNonceAccount => UpgradeNonceAccount

/-- The operation of a kind that carries some fields. -/
def operation : (tag : Tag) → tag.Fields → Operation
  | .createAccount => .createAccount
  | .assign => .assign
  | .transfer => .transfer
  | .createAccountWithSeed => .createAccountWithSeed
  | .advanceNonceAccount => .advanceNonceAccount
  | .withdrawNonceAccount => .withdrawNonceAccount
  | .initializeNonceAccount => .initializeNonceAccount
  | .authorizeNonceAccount => .authorizeNonceAccount
  | .allocate => .allocate
  | .allocateWithSeed => .allocateWithSeed
  | .assignWithSeed => .assignWithSeed
  | .transferWithSeed => .transferWithSeed
  | .upgradeNonceAccount => .upgradeNonceAccount

/-- The fields of an operation, if it is of the kind asked for. -/
def fields? : (tag : Tag) → Operation → Option tag.Fields
  | .createAccount, .createAccount p => some p
  | .assign, .assign p => some p
  | .transfer, .transfer p => some p
  | .createAccountWithSeed, .createAccountWithSeed p => some p
  | .advanceNonceAccount, .advanceNonceAccount p => some p
  | .withdrawNonceAccount, .withdrawNonceAccount p => some p
  | .initializeNonceAccount, .initializeNonceAccount p => some p
  | .authorizeNonceAccount, .authorizeNonceAccount p => some p
  | .allocate, .allocate p => some p
  | .allocateWithSeed, .allocateWithSeed p => some p
  | .assignWithSeed, .assignWithSeed p => some p
  | .transferWithSeed, .transferWithSeed p => some p
  | .upgradeNonceAccount, .upgradeNonceAccount p => some p
  | _, _ => none

/-- The decoder for the instructions of a kind. -/
def decoder : (tag : Tag) → Instruction → Except CodecError tag.Fields
  | .createAccount => decodeCreateAccount
  | .assign => decodeAssign
  | .transfer => decodeTransfer
  | .createAccountWithSeed => decodeCreateAccountWithSeed
  | .advanceNonceAccount => decodeAdvanceNonceAccount
  | .withdrawNonceAccount => decodeWithdrawNonceAccount
  | .initializeNonceAccount => decodeInitializeNonceAccount
  | .authorizeNonceAccount => decodeAuthorizeNonceAccount
  | .allocate => decodeAllocate
  | .allocateWithSeed => decodeAllocateWithSeed
  | .assignWithSeed => decodeAssignWithSeed
  | .transferWithSeed => decodeTransferWithSeed
  | .upgradeNonceAccount => decodeUpgradeNonceAccount

theorem operation_of_fields? {tag : Tag} {p : Operation} {a : tag.Fields}
    (h : tag.fields? p = some a) : tag.operation a = p := by
  unfold fields? at h
  split at h <;> cases h <;> rfl

theorem tag_operation (tag : Tag) (a : tag.Fields) : (tag.operation a).tag = tag := by
  cases tag <;> rfl

theorem exists_fields?_tag (p : Operation) : ∃ a, p.tag.fields? p = some a := by
  cases p <;> exact ⟨_, rfl⟩

theorem decoder_eq_decodeAs (tag : Tag) : tag.decoder = decodeAs tag tag.fields? := by
  cases tag <;> exact congrArg (decodeAs _) (funext fun p => by cases p <;> rfl)

end Tag

/-! ## Decoding as one kind -/

section decodeAs

variable {α : Type} {tag : Tag} {select : Operation → Option α} {ix : Instruction}

theorem decodeAs_of_error {e : CodecError} (h : decode ix = .error e) :
    decodeAs tag select ix = .error e := by
  rw [decodeAs, h]
  rfl

theorem decodeAs_of_some {p : Operation} {a : α} (h : decode ix = .ok p)
    (hselect : select p = some a) : decodeAs tag select ix = .ok a := by
  rw [decodeAs, h]
  simp only [bind, Except.bind, hselect]

theorem decodeAs_of_none {p : Operation} (h : decode ix = .ok p) (hselect : select p = none) :
    decodeAs tag select ix = .error (.unexpectedInstruction tag.code p.tag.code) := by
  rw [decodeAs, h]
  simp only [bind, Except.bind, hselect]

end decodeAs

theorem Operation.tag_payload (p : Operation) : p.payload.tag = p.tag := by
  cases p <;> rfl

/-- The data of an instruction starts with the code of what it is decoded to. -/
theorem code_prefix_of_decode {ix : Instruction} {p : Operation} (h : decode ix = .ok p) :
    Wire.encodeU32 p.tag.code <+: ix.data := by
  obtain ⟨-, hdata, -⟩ := (decode_eq_ok_iff ix p).1 h
  rw [← p.tag_payload]
  exact (List.prefix_append _ _).trans hdata

/-- No decoder takes an operation for one of another kind. -/
theorem Tag.fields?_eq_none {kind : Tag} {p : Operation} (h : kind ≠ p.tag) :
    kind.fields? p = none := by
  rw [Option.eq_none_iff_forall_ne_some]
  intro a ha
  rw [← operation_of_fields? ha, tag_operation] at h
  exact h rfl

/-- The decoders of the kinds divide up what can be decoded at all. If decoding fails, each of them
    fails for the same reason. If not, the data starts with the code of the kind, the decoder of that
    kind and no other succeeds, what it reads makes up the operation again, and all others report
    their own code and the one that they found. -/
theorem decoders_partition (ix : Instruction) :
    (∀ e, decode ix = .error e → ∀ kind : Tag, kind.decoder ix = .error e) ∧
      ∀ p, decode ix = .ok p →
        Wire.encodeU32 p.tag.code <+: ix.data ∧
        (∃! kind : Tag, ∃ a, kind.decoder ix = .ok a) ∧
        (∃ a, p.tag.decoder ix = .ok a ∧ p.tag.operation a = p) ∧
        ∀ kind ≠ p.tag,
          kind.decoder ix = .error (.unexpectedInstruction kind.code p.tag.code) := by
  refine ⟨?_, ?_⟩
  · intro e h kind
    rw [kind.decoder_eq_decodeAs]
    exact decodeAs_of_error h
  · intro p h
    obtain ⟨a, ha⟩ := Tag.exists_fields?_tag p
    have hown : p.tag.decoder ix = .ok a := by
      rw [Tag.decoder_eq_decodeAs]
      exact decodeAs_of_some h ha
    have hother : ∀ kind ≠ p.tag,
        kind.decoder ix = .error (.unexpectedInstruction kind.code p.tag.code) := by
      intro kind hkind
      rw [kind.decoder_eq_decodeAs]
      exact decodeAs_of_none h (Tag.fields?_eq_none hkind)
    refine ⟨code_prefix_of_decode h, ⟨p.tag, ⟨a, hown⟩, ?_⟩,
      ⟨a, hown, Tag.operation_of_fields? ha⟩, hother⟩
    rintro kind ⟨b, hb⟩
    by_contra hkind
    rw [hother kind hkind] at hb
    exact absurd hb (by simp)

end LedgerWire.SystemProgram
