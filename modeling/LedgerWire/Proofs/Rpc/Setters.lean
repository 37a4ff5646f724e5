import LedgerWire.Proofs.Rpc.Builder
import LedgerWire.Rpc.Options.Accounts
import LedgerWire.Rpc.Options.Bundle
import LedgerWire.Rpc.Options.History
import LedgerWire.Rpc.Options.Network
import LedgerWire.Rpc.Options.Transactions

set_option autoImplicit false

/-! # What the changes of options set

For each type of options that can be set one by one, here is a table of its fields. A row names the
field and the changes that are about it, and says what they put there; a fixed field keeps what it
has from the beginning. Most fields are optional, and what is put into them is some value.

The tables do not look at what applying a change does. That it does what they say is checked for
every table, and then a run of changes is told by the last one for each field. All changes are
accepted but the one that is given a bank as a JSON value: if the value stands for a bank, then the
change sets the field of the bank, and if not, then it is refused. -/

namespace LedgerWire.Rpc

/-! ## Account queries -/

/-- A slice is set as a whole, from its two numbers. -/
def AccountOptions.builder : Builder :=
  .total codec apply
    [⟨_, encoding, fun | .encoding v => some (some v) | _ => none⟩,
     ⟨_, dataSlice, fun | .dataSlice offset length => some (some ⟨offset, length⟩) | _ => none⟩,
     ⟨_, commitment, fun | .commitment v => some (some v) | _ => none⟩,
     ⟨_, minContextSlot, fun | .minContextSlot v => some (some v) | _ => none⟩]

/-- The options of a single account are set as a whole. -/
def ScanOptions.builder : Builder :=
  .total codec apply
    [⟨_, filters, fun | .filters v => some (some v) | _ => none⟩,
     ⟨_, account, fun | .account v => some v | _ => none⟩,
     ⟨_, withContext, fun | .withContext v => some (some v) | _ => none⟩,
     ⟨_, sortResults, fun | .sortResults v => some (some v) | _ => none⟩]

/-- Whether the context is returned and the results are sorted is not set one by one. -/
def PagedScanOptions.builder : Builder :=
  .total codec apply
    [⟨_, filters, fun | .filters v => some (some v) | _ => none⟩,
     ⟨_, account, fun | .account v => some v | _ => none⟩,
     .fixed withContext,
     .fixed sortResults,
     ⟨_, limit, fun | .limit v => some (some v) | _ => none⟩,
     ⟨_, paginationKey, fun | .paginationKey v => some (some v) | _ => none⟩,
     ⟨_, changedSinceSlot, fun | .changedSinceSlot v => some (some v) | _ => none⟩]

def LargestAccountsOptions.builder : Builder :=
  .total codec apply
    [⟨_, commitment, fun | .commitment v => some (some v) | _ => none⟩,
     ⟨_, filter, fun | .filter v => some (some v) | _ => none⟩]

def AirdropOptions.builder : Builder :=
  .total codec apply
    [⟨_, recentBlockhash, fun | .recentBlockhash v => some (some v) | _ => none⟩,
     ⟨_, commitment, fun | .commitment v => some (some v) | _ => none⟩]

/-! ## Network queries -/

def ContextOptions.builder : Builder :=
  .total codec apply
    [⟨_, commitment, fun | .commitment v => some (some v) | _ => none⟩,
     ⟨_, minContextSlot, fun | .minContextSlot v => some (some v) | _ => none⟩]

def EpochOptions.builder : Builder :=
  .total codec apply
    [⟨_, epoch, fun | .epoch v => some (some v) | _ => none⟩,
     ⟨_, commitment, fun | .commitment v => some (some v) | _ => none⟩,
     ⟨_, minContextSlot, fun | .minContextSlot v => some (some v) | _ => none⟩]

def SupplyOptions.builder : Builder :=
  .total codec apply
    [⟨_, commitment, fun | .commitment v => some (some v) | _ => none⟩,
     ⟨_, excludeAccountList, fun | .excludeAccountList v => some v | _ => none⟩]

def VoteAccountsOptions.builder : Builder :=
  .total codec apply
    [⟨_, votePubkey, fun | .votePubkey v => some (some v) | _ => none⟩,
     ⟨_, commitment, fun | .commitment v => some (some v) | _ => none⟩,
     ⟨_, keepUnstakedDelinquents, fun | .keepUnstakedDelinquents v => some (some v) | _ => none⟩,
     ⟨_, delinquentSlotDistance, fun | .delinquentSlotDistance v => some (some v) | _ => none⟩]

def LeaderScheduleOptions.builder : Builder :=
  .total codec apply
    [⟨_, identity, fun | .identity v => some (some v) | _ => none⟩,
     ⟨_, commitment, fun | .commitment v => some (some v) | _ => none⟩]

/-- A span has its first slot from the beginning. -/
def SlotSpan.builder : Builder :=
  .total codec apply
    [.fixed firstSlot,
     ⟨_, lastSlot, fun | .lastSlot v => some (some v)⟩]

def BlockProductionOptions.builder : Builder :=
  .total codec apply
    [⟨_, identity, fun | .identity v => some (some v) | _ => none⟩,
     ⟨_, range, fun | .range v => some (some v) | _ => none⟩,
     ⟨_, commitment, fun | .commitment v => some (some v) | _ => none⟩]

/-! ## Transactions -/

/-- The encoding is preset and no change is about it. -/
def SendOptions.builder : Builder :=
  .total codec apply
    [⟨_, skipPreflight, fun | .skipPreflight v => some v | _ => none⟩,
     ⟨_, preflightCommitment, fun | .preflightCommitment v => some (some v) | _ => none⟩,
     .fixed encoding,
     ⟨_, maxRetries, fun | .maxRetries v => some (some v) | _ => none⟩,
     ⟨_, minContextSlot, fun | .minContextSlot v => some (some v) | _ => none⟩]

/-- The accounts that are returned are set together with their encoding. -/
def SimulateOptions.builder : Builder :=
  .total codec apply
    [⟨_, sigVerify, fun | .sigVerify v => some v | _ => none⟩,
     ⟨_, replaceRecentBlockhash, fun | .replaceRecentBlockhash v => some v | _ => none⟩,
     ⟨_, commitment, fun | .commitment v => some (some v) | _ => none⟩,
     ⟨_, encoding, fun | .encoding v => some (some v) | _ => none⟩,
     ⟨_, accounts, fun
       | .accounts addresses encoding => some (some ⟨some encoding, addresses⟩) | _ => none⟩,
     .fixed minContextSlot,
     .fixed innerInstructions]

def SignaturesOptions.builder : Builder :=
  .total codec apply
    [⟨_, before, fun | .before v => some (some v) | _ => none⟩,
     ⟨_, stopAt, fun | .stopAt v => some (some v) | _ => none⟩,
     ⟨_, limit, fun | .limit v => some (some v) | _ => none⟩,
     .fixed commitment,
     .fixed minContextSlot]

def TransactionOptions.builder : Builder :=
  .total codec apply
    [⟨_, encoding, fun | .encoding v => some (some v) | _ => none⟩,
     ⟨_, commitment, fun | .commitment v => some (some v) | _ => none⟩,
     ⟨_, maxSupportedTransactionVersion, fun
       | .maxSupportedTransactionVersion v => some (some v) | _ => none⟩]

def BlockOptions.builder : Builder :=
  .total codec apply
    [⟨_, encoding, fun | .encoding v => some (some v) | _ => none⟩,
     ⟨_, transactionDetails, fun | .transactionDetails v => some (some v) | _ => none⟩,
     ⟨_, rewards, fun | .rewards v => some (some v) | _ => none⟩,
     .fixed commitment,
     ⟨_, maxSupportedTransactionVersion, fun
       | .maxSupportedTransactionVersion v => some (some v) | _ => none⟩]

/-! ## Histories -/

def HistoryFilters.builder : Builder :=
  .total codec apply
    [⟨_, slot, fun | .slot v => some (some v) | _ => none⟩,
     ⟨_, blockTime, fun | .blockTime v => some (some v) | _ => none⟩,
     ⟨_, signature, fun | .signature v => some (some v) | _ => none⟩,
     ⟨_, status, fun | .status v => some (some v) | _ => none⟩,
     ⟨_, tokenAccounts, fun | .tokenAccounts v => some (some v) | _ => none⟩]

def HistoryOptions.builder : Builder :=
  .total codec apply
    [⟨_, transactionDetails, fun | .transactionDetails v => some (some v) | _ => none⟩,
     ⟨_, sortOrder, fun | .sortOrder v => some (some v) | _ => none⟩,
     ⟨_, commitment, fun | .commitment v => some (some v) | _ => none⟩,
     ⟨_, minContextSlot, fun | .minContextSlot v => some (some v) | _ => none⟩,
     ⟨_, limit, fun | .limit v => some (some v) | _ => none⟩,
     ⟨_, paginationToken, fun | .paginationToken v => some (some v) | _ => none⟩,
     ⟨_, encoding, fun | .encoding v => some (some v) | _ => none⟩,
     ⟨_, maxSupportedTransactionVersion, fun
       | .maxSupportedTransactionVersion v => some (some v) | _ => none⟩,
     ⟨_, filters, fun | .filters v => some (some v) | _ => none⟩]

/-! ## Bundles -/

/-- The bank is set by two changes. -/
def BundleOptions.settings : List (Setting BundleOptions Change) :=
  [.fixed before,
   .fixed after,
   ⟨_, transactionEncoding, fun | .transactionEncoding v => some (some v) | _ => none⟩,
   ⟨_, simulationBank, fun
    | .simulationBank v => some (some v)
    | .simulationBankValue v => (SimulationBank.ofJson v).toOption.map some
    | _ => none⟩,
   ⟨_, skipSigVerify, fun | .skipSigVerify v => some v | _ => none⟩,
   ⟨_, replaceRecentBlockhash, fun | .replaceRecentBlockhash v => some v | _ => none⟩]

/-- The options of a bundle, whose changes can be refused. -/
def BundleOptions.builder : Builder :=
  ⟨BundleOptions, Change, codec, apply, settings⟩

theorem BundleOptions.apply_simulationBankValue_of_ok (o : BundleOptions) {v : Json}
    {bank : SimulationBank} (h : SimulationBank.ofJson v = .ok bank) :
    o.apply (.simulationBankValue v) = .ok { o with simulationBank := some bank } := by
  show (SimulationBank.ofJson v).map _ = _
  rw [h]
  rfl

theorem BundleOptions.apply_simulationBankValue_of_error (o : BundleOptions) {v : Json}
    {e : RpcError} (h : SimulationBank.ofJson v = .error e) :
    o.apply (.simulationBankValue v) = .error e := by
  show (SimulationBank.ofJson v).map _ = _
  rw [h]
  rfl

/-- Only a value that stands for no bank is refused. -/
theorem BundleOptions.apply_eq_error_iff (o : BundleOptions) (c : Change) (e : RpcError) :
    o.apply c = .error e ↔
      ∃ v, c = .simulationBankValue v ∧ SimulationBank.ofJson v = .error e := by
  cases c with
  | simulationBankValue v =>
    cases hbank : SimulationBank.ofJson v with
    | ok bank => simp [o.apply_simulationBankValue_of_ok hbank, hbank]
    | error e' => simp [o.apply_simulationBankValue_of_error hbank, hbank]
  | _ => simp [apply]

theorem BundleOptions.builder_lawful : builder.Lawful where
  ext := by
    show ∀ o o' : BundleOptions, (∀ s ∈ settings, s.get o = s.get o') → o = o'
    rintro ⟨⟩ ⟨⟩ h
    simpa [settings, Setting.fixed] using h
  single := by
    intro o c o' h
    show ∃ s, settings.filter (fun s => (s.written? c).isSome) = [s]
    cases c with
    | simulationBankValue v =>
      cases hbank : SimulationBank.ofJson v with
      | ok bank => simp [settings, Setting.fixed, hbank, Except.toOption]
      | error e => cases (o.apply_simulationBankValue_of_error hbank).symm.trans h
    | _ => exact ⟨_, rfl⟩
  get_of_ok := by
    intro o c o' h
    show ∀ s ∈ settings, s.get o' = (s.written? c).getD (s.get o)
    cases c with
    | simulationBankValue v =>
      cases hbank : SimulationBank.ofJson v with
      | ok bank =>
        cases (o.apply_simulationBankValue_of_ok hbank).symm.trans h
        simp [settings, Setting.fixed, hbank, Except.toOption]
      | error e => cases (o.apply_simulationBankValue_of_error hbank).symm.trans h
    | _ =>
      cases h
      simp [settings, Setting.fixed]
  written_of_error := by
    intro o c e h
    show ∀ s ∈ settings, s.written? c = none
    obtain ⟨v, rfl, hbank⟩ := (apply_eq_error_iff o c e).1 h
    simp [settings, Setting.fixed, hbank, Except.toOption]

/-! ## All types -/

/-- The types of options that can be set one by one. -/
def Builder.all : List Builder :=
  [AccountOptions.builder, ScanOptions.builder, PagedScanOptions.builder,
   LargestAccountsOptions.builder, AirdropOptions.builder, ContextOptions.builder,
   EpochOptions.builder, SupplyOptions.builder, VoteAccountsOptions.builder,
   LeaderScheduleOptions.builder, SlotSpan.builder, BlockProductionOptions.builder,
   SendOptions.builder, SimulateOptions.builder, SignaturesOptions.builder,
   TransactionOptions.builder, BlockOptions.builder, HistoryFilters.builder,
   HistoryOptions.builder, BundleOptions.builder]

theorem Builder.all_lawful : ∀ B ∈ all, B.Lawful := by
  simp only [all, List.forall_mem_cons]
  exact ⟨lawful_total, lawful_total, lawful_total, lawful_total, lawful_total, lawful_total,
    lawful_total, lawful_total, lawful_total, lawful_total, lawful_total, lawful_total,
    lawful_total, lawful_total, lawful_total, lawful_total, lawful_total, lawful_total,
    lawful_total, BundleOptions.builder_lawful, List.forall_mem_nil _⟩

/-- Whatever options are set one by one, from whatever they are in the beginning: a run is told by
    the last change of each field, and with it the text. Only the options of a bundle can be refused
    a change, for a value that stands for no bank; their text is then the text of the other
    changes. -/
theorem options_lastWriteWins :
    (∀ B ∈ Builder.all, B.LastWriteWins) ∧
      (∀ (o : BundleOptions) (c : BundleOptions.Change) (e : RpcError),
        o.apply c = .error e ↔
          ∃ v, c = .simulationBankValue v ∧ SimulationBank.ofJson v = .error e) ∧
      ∀ (start : BundleOptions) (before after : List BundleOptions.Change) (v : Json) (e : RpcError),
        SimulationBank.ofJson v = .error e →
          BundleOptions.codec.toText (BundleOptions.builder.run start
              (before ++ BundleOptions.Change.simulationBankValue v :: after)) =
            BundleOptions.codec.toText (BundleOptions.builder.run start (before ++ after)) := by
  refine ⟨fun B hB => (Builder.all_lawful B hB).lastWriteWins, BundleOptions.apply_eq_error_iff, ?_⟩
  intro start before after v e hbank
  have hrefused := (BundleOptions.builder.run start before).apply_simulationBankValue_of_error hbank
  exact BundleOptions.builder_lawful.lastWriteWins.toText_strike start before _ after e hrefused

/-- Changes with two values for a bank, of which the second one is refused. -/
def changesOfMind : List BundleOptions.Change :=
  [.skipSigVerify true, .simulationBankValue (.object [("slot", .natural 9)]),
   .simulationBankValue (.string "processed"), .skipSigVerify false]

/-- They come to the same text as setting the slot last. -/
theorem options_lastWriteWins_changesOfMind :
    BundleOptions.builder ∈ Builder.all ∧
      SimulationBank.ofJson (.string "processed") =
        .error (.invalidUnionVariant "simulationBank" (.string "processed")) ∧
      BundleOptions.codec.toText (BundleOptions.builder.run {} changesOfMind) =
        BundleOptions.codec.toText (BundleOptions.builder.run {}
          [BundleOptions.Change.skipSigVerify false, .simulationBank (.slot 9)]) := by
  have hmem : BundleOptions.builder ∈ Builder.all := by simp [Builder.all]
  have hbank : SimulationBank.ofJson (.string "processed") =
      .error (.invalidUnionVariant "simulationBank" (.string "processed")) := rfl
  have hstrike := options_lastWriteWins.2.2 {}
    [.skipSigVerify true, .simulationBankValue (.object [("slot", .natural 9)])]
    [.skipSigVerify false] _ _ hbank
  refine ⟨hmem, hbank, hstrike.trans ((options_lastWriteWins.1 _ hmem).toText_run _ _ _ ?_)⟩
  show ∀ s ∈ BundleOptions.settings, _
  simp only [BundleOptions.settings, List.forall_mem_cons]
  exact ⟨rfl, rfl, rfl, rfl, rfl, rfl, List.forall_mem_nil _⟩

end LedgerWire.Rpc
