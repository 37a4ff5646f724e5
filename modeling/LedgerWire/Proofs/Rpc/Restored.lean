import LedgerWire.Instruction.Json
import LedgerWire.Proofs.Json.Reread
import LedgerWire.Proofs.Rpc.Options
import LedgerWire.Rpc.Reply

set_option autoImplicit false

/-! # Values survive their text

The options of a call and all that they are made of, keys, instructions and the slot of a result are
read again from their text, whatever their value is. An error of the remote side and an entry of a
history carry a JSON value that the remote side has chosen. They are read again if they came out of
a text, as long as no double is carried. So what a text was read as and written again is not changed
by reading and writing it once more. -/

namespace LedgerWire

open Json (Codec Field Record maxDepth)

variable {depth : Nat}

/-! ## Instructions -/

theorem AccountMeta.codec_solid : codec.Solid (depth + 1) :=
  Record.codec_solid (by decide)
    ⟨Field.required_faithful _ Codec.address_solid.toFaithful,
     Field.required_faithful _ Codec.bool_solid.toFaithful,
     Field.required_faithful _ Codec.bool_solid.toFaithful, trivial⟩
    (fun _ => rfl)

theorem Instruction.codec_solid : codec.Solid (depth + 3) :=
  Record.codec_solid (by decide)
    ⟨Field.required_faithful _ Codec.address_solid.toFaithful,
     Field.required_faithful _ AccountMeta.codec_solid.list.toFaithful,
     Field.required_faithful _ Codec.u8_solid.list.toFaithful, trivial⟩
    (fun _ => rfl)

namespace Rpc

/-! ## Parts of replies -/

theorem SlotContext.codec_solid : codec.Solid (depth + 1) :=
  Record.codec_solid (by decide)
    ⟨Field.required_faithful _ Codec.u64_solid.toFaithful,
     Field.optional_faithful _ Codec.string_solid, trivial⟩
    (fun _ => rfl)

theorem InContext.codec_solid {α : Type} {c : Codec α} (h : c.Faithful (depth + 1)) :
    (codec c).Solid (depth + 2) :=
  Record.codec_solid (show ["context", "value"].Nodup by decide)
    ⟨Field.required_faithful _ SlotContext.codec_solid.toFaithful,
     Field.required_faithful _ h, trivial⟩
    (fun _ => rfl)

theorem ConfirmationStatus.find_name (a : ConfirmationStatus) :
    names.find (names.name a) = .ok a := by
  cases a <;> rfl

theorem ConfirmationStatus.codec_solid : codec.Solid depth :=
  names.codec_solid find_name

theorem RemoteError.codec_restoresRead (e : RemoteError) (h : ∀ v ∈ e.data, v.IsIntegral) :
    codec.RestoresRead (depth + 1) e :=
  Record.codec_restoresRead (by decide)
    ⟨(Field.required_faithful _ Codec.i64_solid.toFaithful).restoresRead e.code,
     (Field.required_faithful _ Codec.string_solid.toFaithful).restoresRead e.message,
     Field.optional_restoresRead _ (Codec.nullable_value_restoresRead h), trivial⟩
    rfl (fun _ => rfl)

theorem HistoryEntry.codec_restoresRead (e : HistoryEntry) (h : ∀ v ∈ e.err, v.IsIntegral) :
    codec.RestoresRead (depth + 1) e :=
  Record.codec_restoresRead (by decide)
    ⟨(Field.required_faithful _ Codec.signature_solid.toFaithful).restoresRead e.signature,
     (Field.required_faithful _ Codec.u64_solid.toFaithful).restoresRead e.slot,
     Field.nullable_restoresRead _ (Codec.nullable_value_restoresRead h),
     (Field.nullable_faithful _ Codec.string_solid).restoresRead e.memo,
     (Field.nullable_faithful _ Codec.i64_solid).restoresRead e.blockTime,
     (Field.nullable_faithful _ ConfirmationStatus.codec_solid).restoresRead e.confirmationStatus,
     (Field.optional_faithful _ Codec.u64_solid).restoresRead e.transactionIndex, trivial⟩
    rfl (fun _ => rfl)

/-! ## All types -/

/-- A type with the way in which it is written and read. -/
structure WireType where
  Value : Type
  codec : Codec Value

/-- The types that hold nothing of unknown shape. -/
def WireType.shaped : List WireType :=
  [⟨_, Codec.address⟩, ⟨_, Codec.signature⟩, ⟨_, AccountMeta.codec⟩, ⟨_, Instruction.codec⟩,
   ⟨_, Commitment.codec⟩, ⟨_, AccountEncoding.codec⟩, ⟨_, TransactionEncoding.codec⟩,
   ⟨_, DetailLevel.codec⟩, ⟨_, DataSlice.codec⟩,
   ⟨_, PatternEncoding.codec⟩, ⟨_, BytePattern.codec⟩, ⟨_, ScanFilter.codec⟩,
   ⟨_, ScanFilter.codec.list⟩, ⟨_, TokenFilter.codec⟩,
   ⟨_, AccountOptions.codec⟩, ⟨_, ScanOptions.codec⟩, ⟨_, PagedScanOptions.codec⟩,
   ⟨_, Circulation.codec⟩, ⟨_, LargestAccountsOptions.codec⟩, ⟨_, AirdropOptions.codec⟩,
   ⟨_, ContextOptions.codec⟩, ⟨_, EpochOptions.codec⟩, ⟨_, SupplyOptions.codec⟩,
   ⟨_, VoteAccountsOptions.codec⟩, ⟨_, LeaderScheduleOptions.codec⟩, ⟨_, SlotSpan.codec⟩,
   ⟨_, BlockProductionOptions.codec⟩,
   ⟨_, SendOptions.codec⟩, ⟨_, ReturnedAccounts.codec⟩, ⟨_, SimulateOptions.codec⟩,
   ⟨_, SignatureStatusOptions.codec⟩, ⟨_, SignaturesOptions.codec⟩, ⟨_, TransactionOptions.codec⟩,
   ⟨_, BlockOptions.codec⟩,
   ⟨_, HistoryOrder.codec⟩, ⟨_, Outcome.codec⟩, ⟨_, TokenAccountScope.codec⟩,
   ⟨_, SlotBounds.codec⟩, ⟨_, TimeBounds.codec⟩, ⟨_, SignatureBounds.codec⟩,
   ⟨_, HistoryFilters.codec⟩, ⟨_, HistoryOptions.codec⟩,
   ⟨_, CapturedAccounts.codec⟩, ⟨_, SimulationBank.codec⟩, ⟨_, BundleOptions.codec⟩,
   ⟨_, SlotContext.codec⟩, ⟨_, InContext.codec Codec.u64⟩]

/-- A type that carries any JSON value, or none. -/
structure CarrierType extends WireType where
  carried : Value → Option Json

/-- The parts of replies that carry a value of unknown shape. -/
def CarrierType.all : List CarrierType :=
  [⟨⟨_, RemoteError.codec⟩, RemoteError.data⟩, ⟨⟨_, HistoryEntry.codec⟩, HistoryEntry.err⟩]

theorem WireType.shaped_solid : ∀ T ∈ shaped, T.codec.Solid maxDepth := by
  simp only [shaped, List.forall_mem_cons]
  exact ⟨Codec.address_solid, Codec.signature_solid, AccountMeta.codec_solid,
    Instruction.codec_solid,
    Commitment.codec_solid, AccountEncoding.codec_solid, TransactionEncoding.codec_solid,
    DetailLevel.codec_solid, DataSlice.codec_solid,
    PatternEncoding.codec_solid, BytePattern.codec_solid, ScanFilter.codec_solid,
    ScanFilter.codec_solid.list, TokenFilter.codec_solid,
    AccountOptions.codec_solid, ScanOptions.codec_solid, PagedScanOptions.codec_solid,
    Circulation.codec_solid, LargestAccountsOptions.codec_solid, AirdropOptions.codec_solid,
    ContextOptions.codec_solid, EpochOptions.codec_solid, SupplyOptions.codec_solid,
    VoteAccountsOptions.codec_solid, LeaderScheduleOptions.codec_solid, SlotSpan.codec_solid,
    BlockProductionOptions.codec_solid,
    SendOptions.codec_solid, ReturnedAccounts.codec_solid, SimulateOptions.codec_solid,
    SignatureStatusOptions.codec_solid, SignaturesOptions.codec_solid,
    TransactionOptions.codec_solid, BlockOptions.codec_solid,
    HistoryOrder.codec_solid, Outcome.codec_solid, TokenAccountScope.codec_solid,
    SlotBounds.codec_solid, TimeBounds.codec_solid, SignatureBounds.codec_solid,
    HistoryFilters.codec_solid, HistoryOptions.codec_solid,
    CapturedAccounts.codec_solid, SimulationBank.codec_solid, BundleOptions.codec_solid,
    SlotContext.codec_solid, InContext.codec_solid Codec.u64_solid.toFaithful,
    List.forall_mem_nil _⟩

theorem CarrierType.all_restoreRead : ∀ T ∈ all, ∀ a, (∀ v ∈ T.carried a, v.IsIntegral) →
    T.codec.RestoresRead maxDepth a := by
  simp only [all, List.forall_mem_cons]
  exact ⟨RemoteError.codec_restoresRead, HistoryEntry.codec_restoresRead, List.forall_mem_nil _⟩

/-- Values survive their text, and rewriting a text that was rewritten does not change it. Where a
    value of unknown shape is carried, this is so for what has come out of a text, unless it carries
    a double. -/
theorem wireTypes_survive :
    (∀ T ∈ WireType.shaped,
      (∀ a, T.codec.fromText (T.codec.toText a) = .ok a) ∧
        ∀ text written, T.codec.rewrite text = .ok written →
          T.codec.rewrite written = .ok written) ∧
      ∀ T ∈ CarrierType.all, ∀ text a, T.codec.fromText text = .ok a →
        (∀ v ∈ T.carried a, v.IsIntegral) →
        T.codec.fromText (T.codec.toText a) = .ok a ∧
          T.codec.rewrite (T.codec.toText a) = .ok (T.codec.toText a) := by
  refine ⟨?_, ?_⟩
  · intro T hT
    have hread : ∀ a, T.codec.fromText (T.codec.toText a) = .ok a := by
      intro a
      exact ((WireType.shaped_solid T hT).restores a).fromText_toText
    refine ⟨hread, ?_⟩
    intro text written hwritten
    obtain ⟨a, -, rfl⟩ := (Codec.rewrite_eq_ok_iff T.codec text written).1 hwritten
    exact Codec.rewrite_toText (hread a)
  · intro T hT text a htext hintegral
    have hread := (CarrierType.all_restoreRead T hT a hintegral).fromText_toText htext
    exact ⟨hread, Codec.rewrite_toText hread⟩

/-- An error in which the parts stand in another order than they are written in. -/
def shuffledError : Json :=
  .object [("data", .array [.natural 1, .null]), ("message", .string "full"),
    ("code", .number (.negative 4))]

/-- The error that is read from it. -/
def fullError : RemoteError := ⟨.ofInt (-5), "full", some (.array [.natural 1, .null])⟩

theorem plain_shuffledError : Json.Plain maxDepth shuffledError := by
  have hdata : Json.Plain 126 (.array [.natural 1, .null]) :=
    .array _ (List.forall_mem_cons.2 ⟨.number _ trivial, List.forall_mem_singleton.2 .null⟩)
  refine .object _ (by decide) ?_
  intro m hm
  simp only [List.mem_cons, List.not_mem_nil, or_false] at hm
  rcases hm with rfl | rfl | rfl
  · exact hdata
  · exact .string _
  · exact .number _ trivial

/-- A level that was written as the key of a null, and the error. -/
theorem wireTypes_survive_fullError :
    Commitment.codec.rewrite (Json.object [("confirmed", .null)]).text =
        .ok (Commitment.codec.toText .confirmed) ∧
      Commitment.codec.rewrite (Commitment.codec.toText .confirmed) =
        .ok (Commitment.codec.toText .confirmed) ∧
      RemoteError.codec.fromText shuffledError.text = .ok fullError ∧
      (∀ v ∈ fullError.data, v.IsIntegral) ∧
      RemoteError.codec.fromText (RemoteError.codec.toText fullError) = .ok fullError := by
  have hlevel : Commitment.codec.rewrite (Json.object [("confirmed", .null)]).text =
      .ok (Commitment.codec.toText .confirmed) := by
    rw [Codec.rewrite, Codec.fromText_text _ (.object_singleton _ .null)]
    rfl
  have herror : RemoteError.codec.fromText shuffledError.text = .ok fullError := by
    rw [Codec.fromText_text _ plain_shuffledError]
    rfl
  have hintegral : ∀ v ∈ fullError.data, v.IsIntegral := by
    intro v hv
    obtain rfl := Option.some.inj hv
    exact .array _ (List.forall_mem_cons.2 ⟨.number _ trivial, List.forall_mem_singleton.2 .null⟩)
  have hshaped : ⟨_, Commitment.codec⟩ ∈ WireType.shaped := by simp [WireType.shaped]
  exact ⟨hlevel, (wireTypes_survive.1 _ hshaped).2 _ _ hlevel, herror, hintegral,
    (wireTypes_survive.2 _ List.mem_cons_self _ _ herror hintegral).1⟩

end Rpc

end LedgerWire
