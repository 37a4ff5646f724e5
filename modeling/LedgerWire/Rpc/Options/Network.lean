import LedgerWire.Rpc.Terms

set_option autoImplicit false

/-! # Options of network queries

Options of the queries about the state of the network as a whole: blocks, epochs, validators and the
supply of lamports. -/

namespace LedgerWire.Rpc

open Json (Codec Record)

/-! ## State -/

/-- Which state a query is about. -/
structure ContextOptions where
  commitment : Option Commitment := none
  minContextSlot : Option UInt64 := none
deriving DecidableEq

namespace ContextOptions

/-- The fields of the options. -/
def record : Record ContextOptions where
  types := _
  fields :=
    .cons (.optional "commitment" Commitment.codec) <|
    .cons (.optional "minContextSlot" Codec.u64) .nil
  toRow o := (o.commitment, o.minContextSlot, ())
  ofRow | (commitment, minContextSlot, ()) => ⟨commitment, minContextSlot⟩

/-- The options as an object. -/
def codec : Codec ContextOptions := record.codec

/-- What can be set. -/
inductive Change where
  | commitment (v : Commitment)
  | minContextSlot (v : UInt64)

/-- Sets one option. -/
def apply (o : ContextOptions) : Change → ContextOptions
  | .commitment v => { o with commitment := some v }
  | .minContextSlot v => { o with minContextSlot := some v }

end ContextOptions

/-- Which epoch a query is about. -/
structure EpochOptions where
  epoch : Option UInt64 := none
  commitment : Option Commitment := none
  minContextSlot : Option UInt64 := none
deriving DecidableEq

namespace EpochOptions

/-- The fields of the options. -/
def record : Record EpochOptions where
  types := _
  fields :=
    .cons (.optional "epoch" Codec.u64) <|
    .cons (.optional "commitment" Commitment.codec) <|
    .cons (.optional "minContextSlot" Codec.u64) .nil
  toRow o := (o.epoch, o.commitment, o.minContextSlot, ())
  ofRow | (epoch, commitment, minContextSlot, ()) => ⟨epoch, commitment, minContextSlot⟩

/-- The options as an object. -/
def codec : Codec EpochOptions := record.codec

/-- What can be set. -/
inductive Change where
  | epoch (v : UInt64)
  | commitment (v : Commitment)
  | minContextSlot (v : UInt64)

/-- Sets one option. -/
def apply (o : EpochOptions) : Change → EpochOptions
  | .epoch v => { o with epoch := some v }
  | .commitment v => { o with commitment := some v }
  | .minContextSlot v => { o with minContextSlot := some v }

end EpochOptions

/-- How the supply is reported. The flag leaves out the list of the accounts that are not in
    circulation; it is written even if it is not set. -/
structure SupplyOptions where
  commitment : Option Commitment := none
  excludeAccountList : Bool := false
deriving DecidableEq

namespace SupplyOptions

/-- The fields of the options. -/
def record : Record SupplyOptions where
  types := _
  fields :=
    .cons (.optional "commitment" Commitment.codec) <|
    .cons (.defaulted "excludeNonCirculatingAccountsList" Codec.bool false) .nil
  toRow o := (o.commitment, o.excludeAccountList, ())
  ofRow | (commitment, excludeAccountList, ()) => ⟨commitment, excludeAccountList⟩

/-- The options as an object. -/
def codec : Codec SupplyOptions := record.codec

/-- What can be set. -/
inductive Change where
  | commitment (v : Commitment)
  | excludeAccountList (v : Bool)

/-- Sets one option. -/
def apply (o : SupplyOptions) : Change → SupplyOptions
  | .commitment v => { o with commitment := some v }
  | .excludeAccountList v => { o with excludeAccountList := v }

end SupplyOptions

/-! ## Validators -/

/-- Which vote accounts are returned. -/
structure VoteAccountsOptions where
  votePubkey : Option Address := none
  commitment : Option Commitment := none
  keepUnstakedDelinquents : Option Bool := none
  delinquentSlotDistance : Option UInt64 := none
deriving DecidableEq

namespace VoteAccountsOptions

/-- The fields of the options. -/
def record : Record VoteAccountsOptions where
  types := _
  fields :=
    .cons (.optional "votePubkey" Codec.address) <|
    .cons (.optional "commitment" Commitment.codec) <|
    .cons (.optional "keepUnstakedDelinquents" Codec.bool) <|
    .cons (.optional "delinquentSlotDistance" Codec.u64) .nil
  toRow o := (o.votePubkey, o.commitment, o.keepUnstakedDelinquents, o.delinquentSlotDistance, ())
  ofRow
    | (votePubkey, commitment, keepUnstakedDelinquents, delinquentSlotDistance, ()) =>
      ⟨votePubkey, commitment, keepUnstakedDelinquents, delinquentSlotDistance⟩

/-- The options as an object. -/
def codec : Codec VoteAccountsOptions := record.codec

/-- What can be set. -/
inductive Change where
  | votePubkey (v : Address)
  | commitment (v : Commitment)
  | keepUnstakedDelinquents (v : Bool)
  | delinquentSlotDistance (v : UInt64)

/-- Sets one option. -/
def apply (o : VoteAccountsOptions) : Change → VoteAccountsOptions
  | .votePubkey v => { o with votePubkey := some v }
  | .commitment v => { o with commitment := some v }
  | .keepUnstakedDelinquents v => { o with keepUnstakedDelinquents := some v }
  | .delinquentSlotDistance v => { o with delinquentSlotDistance := some v }

end VoteAccountsOptions

/-- Whose part of the leader schedule is returned. -/
structure LeaderScheduleOptions where
  identity : Option Address := none
  commitment : Option Commitment := none
deriving DecidableEq

namespace LeaderScheduleOptions

/-- The fields of the options. -/
def record : Record LeaderScheduleOptions where
  types := _
  fields :=
    .cons (.optional "identity" Codec.address) <|
    .cons (.optional "commitment" Commitment.codec) .nil
  toRow o := (o.identity, o.commitment, ())
  ofRow | (identity, commitment, ()) => ⟨identity, commitment⟩

/-- The options as an object. -/
def codec : Codec LeaderScheduleOptions := record.codec

/-- What can be set. -/
inductive Change where
  | identity (v : Address)
  | commitment (v : Commitment)

/-- Sets one option. -/
def apply (o : LeaderScheduleOptions) : Change → LeaderScheduleOptions
  | .identity v => { o with identity := some v }
  | .commitment v => { o with commitment := some v }

end LeaderScheduleOptions

/-! ## Block production -/

/-- The slots from the first one to the last one, or to the highest one. -/
structure SlotSpan where
  firstSlot : UInt64 := 0
  lastSlot : Option UInt64 := none
deriving DecidableEq

namespace SlotSpan

/-- The fields. -/
def record : Record SlotSpan where
  types := _
  fields :=
    .cons (.required "firstSlot" Codec.u64) <|
    .cons (.optional "lastSlot" Codec.u64) .nil
  toRow o := (o.firstSlot, o.lastSlot, ())
  ofRow | (firstSlot, lastSlot, ()) => ⟨firstSlot, lastSlot⟩

/-- The value as an object. -/
def codec : Codec SlotSpan := record.codec

/-- What can be set. -/
inductive Change where
  | lastSlot (v : UInt64)

/-- Sets one end. -/
def apply (o : SlotSpan) : Change → SlotSpan
  | .lastSlot v => { o with lastSlot := some v }

end SlotSpan

/-- Whose blocks are counted, and where. -/
structure BlockProductionOptions where
  identity : Option Address := none
  range : Option SlotSpan := none
  commitment : Option Commitment := none
deriving DecidableEq

namespace BlockProductionOptions

/-- The fields of the options. -/
def record : Record BlockProductionOptions where
  types := _
  fields :=
    .cons (.optional "identity" Codec.address) <|
    .cons (.optional "range" SlotSpan.codec) <|
    .cons (.optional "commitment" Commitment.codec) .nil
  toRow o := (o.identity, o.range, o.commitment, ())
  ofRow | (identity, range, commitment, ()) => ⟨identity, range, commitment⟩

/-- The options as an object. -/
def codec : Codec BlockProductionOptions := record.codec

/-- What can be set. -/
inductive Change where
  | identity (v : Address)
  | range (v : SlotSpan)
  | commitment (v : Commitment)

/-- Sets one option. -/
def apply (o : BlockProductionOptions) : Change → BlockProductionOptions
  | .identity v => { o with identity := some v }
  | .range v => { o with range := some v }
  | .commitment v => { o with commitment := some v }

end BlockProductionOptions

end LedgerWire.Rpc
