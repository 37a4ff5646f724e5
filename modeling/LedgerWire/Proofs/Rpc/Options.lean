import LedgerWire.Proofs.Json.Faithful
import LedgerWire.Rpc.Call

set_option autoImplicit false

/-! # Options are read as they were written

For each kind of options, and for the terms and filters inside them, the codec is solid. The keys of
the fields of one object differ, and every field is written by a codec that is solid itself. How
deep the values are nested is counted from the innermost one, so any greater depth will do. -/

namespace LedgerWire.Rpc

open Json (Codec Field Record)

variable {depth : Nat}

/-! ## Terms -/

theorem Commitment.find_name (a : Commitment) : names.find (names.name a) = .ok a := by
  cases a <;> rfl

theorem Commitment.codec_solid : codec.Solid depth :=
  names.codec_solid find_name

theorem AccountEncoding.find_name (a : AccountEncoding) : names.find (names.name a) = .ok a := by
  cases a <;> rfl

theorem AccountEncoding.codec_solid : codec.Solid depth :=
  names.codec_solid find_name

theorem TransactionEncoding.find_name (a : TransactionEncoding) :
    names.find (names.name a) = .ok a := by
  cases a <;> rfl

theorem TransactionEncoding.codec_solid : codec.Solid depth :=
  names.codec_solid find_name

theorem DetailLevel.find_name (a : DetailLevel) : names.find (names.name a) = .ok a := by
  cases a <;> rfl

theorem DetailLevel.codec_solid : codec.Solid depth :=
  names.codec_solid find_name

theorem DataSlice.codec_solid : codec.Solid (depth + 1) :=
  Record.codec_solid (by decide)
    ⟨Field.required_faithful _ Codec.u64_solid.toFaithful,
     Field.required_faithful _ Codec.u64_solid.toFaithful, trivial⟩
    (fun _ => rfl)

/-! ## Filters -/

theorem PatternEncoding.find_name (a : PatternEncoding) : names.find (names.name a) = .ok a := by
  cases a <;> rfl

theorem PatternEncoding.codec_solid : codec.Solid depth :=
  names.codec_solid find_name

theorem BytePattern.codec_solid : codec.Solid (depth + 1) :=
  Record.codec_solid (by decide)
    ⟨Field.required_faithful _ Codec.u64_solid.toFaithful,
     Field.required_faithful _ Codec.string_solid.toFaithful,
     Field.defaulted_faithful _ PatternEncoding.codec_solid.toFaithful _, trivial⟩
    (fun _ => rfl)

theorem ScanFilter.codec_solid : codec.Solid (depth + 2) := by
  have hsize : Codec.u64.Solid 0 := Codec.u64_solid
  have hpattern : BytePattern.codec.Solid 1 := BytePattern.codec_solid
  refine Codec.variants_solid _ _ ?_ ?_
  · intro f
    cases f with
    | dataSize size => exact Codec.u64_solid.plain_encode size
    | pattern p => exact BytePattern.codec_solid.plain_encode p
  · intro known f
    cases f with
    | dataSize size => exact ⟨_, rfl, hsize.map_decode_encode dataSize known size⟩
    | pattern p => exact ⟨_, rfl, hpattern.map_decode_encode pattern known p⟩

theorem TokenFilter.codec_solid : codec.Solid (depth + 1) := by
  have haddress : Codec.address.Solid 0 := Codec.address_solid
  refine Codec.variants_solid _ _ ?_ ?_
  · intro f
    cases f with
    | mint a => exact Codec.address_solid.plain_encode a
    | program a => exact Codec.address_solid.plain_encode a
  · intro known f
    cases f with
    | mint a => exact ⟨_, rfl, haddress.map_decode_encode mint known a⟩
    | program a => exact ⟨_, rfl, haddress.map_decode_encode program known a⟩

/-! ## Account queries -/

theorem AccountOptions.codec_solid : codec.Solid (depth + 2) :=
  Record.codec_solid (by decide)
    ⟨Field.optional_faithful _ AccountEncoding.codec_solid,
     Field.optional_faithful _ DataSlice.codec_solid,
     Field.optional_faithful _ Commitment.codec_solid,
     Field.optional_faithful _ Codec.u64_solid, trivial⟩
    (fun _ => rfl)

theorem AccountOptions.mergedEncoding_faithful : mergedEncoding.Faithful depth :=
  Field.setAside_faithful
    (Field.optional_faithful _ (AccountEncoding.names.laxCodec_solid AccountEncoding.find_name))

theorem AccountOptions.mergedDataSlice_faithful : mergedDataSlice.Faithful (depth + 1) :=
  Field.setAside_faithful (Field.optional_faithful _ DataSlice.codec_solid)

theorem AccountOptions.mergedCommitment_faithful : mergedCommitment.Faithful depth :=
  Field.setAside_faithful
    (Field.optional_faithful _ (Commitment.names.laxCodec_solid Commitment.find_name))

theorem AccountOptions.mergedMinContextSlot_faithful : mergedMinContextSlot.Faithful depth :=
  Field.setAside_faithful (Field.optional_faithful _ Codec.u64_solid)

theorem ScanOptions.codec_solid : codec.Solid (depth + 4) :=
  Record.mergedCodec_solid (by decide)
    ⟨Field.optional_faithful _ ScanFilter.codec_solid.list,
     AccountOptions.mergedEncoding_faithful,
     AccountOptions.mergedDataSlice_faithful,
     AccountOptions.mergedCommitment_faithful,
     AccountOptions.mergedMinContextSlot_faithful,
     Field.optional_faithful _ Codec.bool_solid,
     Field.optional_faithful _ Codec.bool_solid, trivial⟩
    (fun _ => rfl)

theorem PagedScanOptions.codec_solid : codec.Solid (depth + 4) :=
  Record.mergedCodec_solid (by decide)
    ⟨Field.optional_faithful _ ScanFilter.codec_solid.list,
     AccountOptions.mergedEncoding_faithful,
     AccountOptions.mergedDataSlice_faithful,
     AccountOptions.mergedCommitment_faithful,
     AccountOptions.mergedMinContextSlot_faithful,
     Field.optional_faithful _ Codec.bool_solid,
     Field.optional_faithful _ Codec.bool_solid,
     Field.optional_faithful _ Codec.u64_solid,
     Field.optional_faithful _ Codec.string_solid,
     Field.optional_faithful _ Codec.u64_solid, trivial⟩
    (fun _ => rfl)

theorem Circulation.find_name (a : Circulation) : names.find (names.name a) = .ok a := by
  cases a <;> rfl

theorem Circulation.codec_solid : codec.Solid depth :=
  names.codec_solid find_name

theorem LargestAccountsOptions.codec_solid : codec.Solid (depth + 1) :=
  Record.codec_solid (by decide)
    ⟨Field.optional_faithful _ Commitment.codec_solid,
     Field.optional_faithful _ Circulation.codec_solid, trivial⟩
    (fun _ => rfl)

theorem AirdropOptions.codec_solid : codec.Solid (depth + 1) :=
  Record.codec_solid (by decide)
    ⟨Field.optional_faithful _ Codec.string_solid,
     Field.optional_faithful _ Commitment.codec_solid, trivial⟩
    (fun _ => rfl)

/-! ## Network -/

theorem ContextOptions.codec_solid : codec.Solid (depth + 1) :=
  Record.codec_solid (by decide)
    ⟨Field.optional_faithful _ Commitment.codec_solid,
     Field.optional_faithful _ Codec.u64_solid, trivial⟩
    (fun _ => rfl)

theorem EpochOptions.codec_solid : codec.Solid (depth + 1) :=
  Record.codec_solid (by decide)
    ⟨Field.optional_faithful _ Codec.u64_solid,
     Field.optional_faithful _ Commitment.codec_solid,
     Field.optional_faithful _ Codec.u64_solid, trivial⟩
    (fun _ => rfl)

theorem SupplyOptions.codec_solid : codec.Solid (depth + 1) :=
  Record.codec_solid (by decide)
    ⟨Field.optional_faithful _ Commitment.codec_solid,
     Field.defaulted_faithful _ Codec.bool_solid.toFaithful _, trivial⟩
    (fun _ => rfl)

theorem VoteAccountsOptions.codec_solid : codec.Solid (depth + 1) :=
  Record.codec_solid (by decide)
    ⟨Field.optional_faithful _ Codec.address_solid,
     Field.optional_faithful _ Commitment.codec_solid,
     Field.optional_faithful _ Codec.bool_solid,
     Field.optional_faithful _ Codec.u64_solid, trivial⟩
    (fun _ => rfl)

theorem LeaderScheduleOptions.codec_solid : codec.Solid (depth + 1) :=
  Record.codec_solid (by decide)
    ⟨Field.optional_faithful _ Codec.address_solid,
     Field.optional_faithful _ Commitment.codec_solid, trivial⟩
    (fun _ => rfl)

theorem SlotSpan.codec_solid : codec.Solid (depth + 1) :=
  Record.codec_solid (by decide)
    ⟨Field.required_faithful _ Codec.u64_solid.toFaithful,
     Field.optional_faithful _ Codec.u64_solid, trivial⟩
    (fun _ => rfl)

theorem BlockProductionOptions.codec_solid : codec.Solid (depth + 2) :=
  Record.codec_solid (by decide)
    ⟨Field.optional_faithful _ Codec.address_solid,
     Field.optional_faithful _ SlotSpan.codec_solid,
     Field.optional_faithful _ Commitment.codec_solid, trivial⟩
    (fun _ => rfl)

/-! ## Transactions -/

theorem SendOptions.codec_solid : codec.Solid (depth + 1) :=
  Record.codec_solid (by decide)
    ⟨Field.defaulted_faithful _ Codec.bool_solid.toFaithful _,
     Field.optional_faithful _ Commitment.codec_solid,
     Field.optional_faithful _ TransactionEncoding.codec_solid,
     Field.optional_faithful _ Codec.u64_solid,
     Field.optional_faithful _ Codec.u64_solid, trivial⟩
    (fun _ => rfl)

theorem ReturnedAccounts.codec_solid : codec.Solid (depth + 2) :=
  Record.codec_solid (by decide)
    ⟨Field.optional_faithful _ AccountEncoding.codec_solid,
     Field.required_faithful _ Codec.address_solid.list.toFaithful, trivial⟩
    (fun _ => rfl)

theorem SimulateOptions.codec_solid : codec.Solid (depth + 3) :=
  Record.codec_solid (by decide)
    ⟨Field.defaulted_faithful _ Codec.bool_solid.toFaithful _,
     Field.defaulted_faithful _ Codec.bool_solid.toFaithful _,
     Field.optional_faithful _ Commitment.codec_solid,
     Field.optional_faithful _ TransactionEncoding.codec_solid,
     Field.optional_faithful _ ReturnedAccounts.codec_solid,
     Field.optional_faithful _ Codec.u64_solid,
     Field.defaulted_faithful _ Codec.bool_solid.toFaithful _, trivial⟩
    (fun _ => rfl)

theorem SignatureStatusOptions.codec_solid : codec.Solid (depth + 1) :=
  Record.codec_solid (by decide)
    ⟨Field.required_faithful _ Codec.bool_solid.toFaithful, trivial⟩
    (fun _ => rfl)

theorem SignaturesOptions.codec_solid : codec.Solid (depth + 1) :=
  Record.codec_solid (by decide)
    ⟨Field.optional_faithful _ Codec.signature_solid,
     Field.optional_faithful _ Codec.signature_solid,
     Field.optional_faithful _ Codec.u64_solid,
     Field.optional_faithful _ Commitment.codec_solid,
     Field.optional_faithful _ Codec.u64_solid, trivial⟩
    (fun _ => rfl)

theorem TransactionOptions.codec_solid : codec.Solid (depth + 1) :=
  Record.codec_solid (by decide)
    ⟨Field.optional_faithful _ TransactionEncoding.codec_solid,
     Field.optional_faithful _ Commitment.codec_solid,
     Field.optional_faithful _ Codec.u8_solid, trivial⟩
    (fun _ => rfl)

theorem BlockOptions.codec_solid : codec.Solid (depth + 1) :=
  Record.codec_solid (by decide)
    ⟨Field.optional_faithful _ TransactionEncoding.codec_solid,
     Field.optional_faithful _ DetailLevel.codec_solid,
     Field.optional_faithful _ Codec.bool_solid,
     Field.optional_faithful _ Commitment.codec_solid,
     Field.optional_faithful _ Codec.u8_solid, trivial⟩
    (fun _ => rfl)

/-! ## Histories -/

theorem HistoryOrder.find_name (a : HistoryOrder) : names.find (names.name a) = .ok a := by
  cases a <;> rfl

theorem HistoryOrder.codec_solid : codec.Solid depth :=
  names.codec_solid find_name

theorem Outcome.find_name (a : Outcome) : names.find (names.name a) = .ok a := by
  cases a <;> rfl

theorem Outcome.codec_solid : codec.Solid depth :=
  names.codec_solid find_name

theorem TokenAccountScope.find_name (a : TokenAccountScope) :
    names.find (names.name a) = .ok a := by
  cases a <;> rfl

theorem TokenAccountScope.codec_solid : codec.Solid depth :=
  names.codec_solid find_name

theorem SlotBounds.codec_solid : codec.Solid (depth + 1) :=
  Record.codec_solid (by decide)
    ⟨Field.optional_faithful _ Codec.u64_solid,
     Field.optional_faithful _ Codec.u64_solid,
     Field.optional_faithful _ Codec.u64_solid,
     Field.optional_faithful _ Codec.u64_solid, trivial⟩
    (fun _ => rfl)

theorem TimeBounds.codec_solid : codec.Solid (depth + 1) :=
  Record.codec_solid (by decide)
    ⟨Field.optional_faithful _ Codec.u64_solid,
     Field.optional_faithful _ Codec.u64_solid,
     Field.optional_faithful _ Codec.u64_solid,
     Field.optional_faithful _ Codec.u64_solid,
     Field.optional_faithful _ Codec.u64_solid, trivial⟩
    (fun _ => rfl)

theorem SignatureBounds.codec_solid : codec.Solid (depth + 1) :=
  Record.codec_solid (by decide)
    ⟨Field.optional_faithful _ Codec.signature_solid,
     Field.optional_faithful _ Codec.signature_solid,
     Field.optional_faithful _ Codec.signature_solid,
     Field.optional_faithful _ Codec.signature_solid, trivial⟩
    (fun _ => rfl)

theorem HistoryFilters.codec_solid : codec.Solid (depth + 2) :=
  Record.codec_solid (by decide)
    ⟨Field.optional_faithful _ SlotBounds.codec_solid,
     Field.optional_faithful _ TimeBounds.codec_solid,
     Field.optional_faithful _ SignatureBounds.codec_solid,
     Field.optional_faithful _ Outcome.codec_solid,
     Field.optional_faithful _ TokenAccountScope.codec_solid, trivial⟩
    (fun _ => rfl)

theorem HistoryOptions.codec_solid : codec.Solid (depth + 3) :=
  Record.codec_solid (by decide)
    ⟨Field.optional_faithful _ DetailLevel.codec_solid,
     Field.optional_faithful _ HistoryOrder.codec_solid,
     Field.optional_faithful _ Commitment.codec_solid,
     Field.optional_faithful _ Codec.u64_solid,
     Field.optional_faithful _ Codec.u64_solid,
     Field.optional_faithful _ Codec.string_solid,
     Field.optional_faithful _ TransactionEncoding.codec_solid,
     Field.optional_faithful _ Codec.u8_solid,
     Field.optional_faithful _ HistoryFilters.codec_solid, trivial⟩
    (fun _ => rfl)

/-! ## Bundles -/

theorem CapturedAccounts.codec_solid : codec.Solid (depth + 2) :=
  Record.codec_solid (by decide)
    ⟨Field.required_faithful _ Codec.address_solid.list.toFaithful,
     Field.optional_faithful _ AccountEncoding.codec_solid, trivial⟩
    (fun _ => rfl)

theorem SimulationBank.ofJson?_toJson (bank : SimulationBank) :
    ofJson? bank.toJson = some bank := by
  cases bank with
  | tip => rfl
  | slot n => rfl
  | commitment level => cases level <;> rfl

theorem SimulationBank.decode_eq_ok_iff (t : Json.Tree) (bank : SimulationBank) :
    codec.decode t = .ok bank ↔ ∃ value, t.toJson? = some value ∧ ofJson? value = some bank := by
  unfold codec
  cases htree : t.toJson? with
  | none => simp [htree]
  | some value => cases hbank : ofJson? value <;> simp [htree, hbank]

theorem SimulationBank.codec_solid : codec.Solid (depth + 2) where
  plain_encode bank := by
    cases bank with
    | tip => exact .string "tip"
    | slot n => exact .object_singleton _ (.number (.natural n) trivial)
    | commitment level =>
      exact .object_singleton _ (.object_singleton _ (Commitment.codec_solid.plain_encode level))
  decode_encode known bank := by
    -- the tree of a bank stands for its shape
    have hshape : (Json.Tree.ofJson known bank.toJson).toJson? = some bank.toJson := by
      cases bank <;> rfl
    exact (decode_eq_ok_iff _ bank).2 ⟨bank.toJson, hshape, ofJson?_toJson bank⟩
  encode_ne_null bank := by cases bank <;> simp [codec, toJson]

theorem BundleOptions.codec_solid : codec.Solid (depth + 4) :=
  Record.codec_solid (by decide)
    ⟨Field.required_faithful _ CapturedAccounts.codec_solid.nullable.list.toFaithful,
     Field.required_faithful _ CapturedAccounts.codec_solid.nullable.list.toFaithful,
     Field.optional_faithful _ TransactionEncoding.codec_solid,
     Field.optional_faithful _ SimulationBank.codec_solid,
     Field.defaulted_faithful _ Codec.bool_solid.toFaithful _,
     Field.defaulted_faithful _ Codec.bool_solid.toFaithful _, trivial⟩
    (fun _ => rfl)

end LedgerWire.Rpc
