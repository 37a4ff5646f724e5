import LedgerWire.Rpc.Terms

set_option autoImplicit false

/-! # Options of transaction history queries

The history of an address can be ordered, paged and filtered. Bounds on slots, times and signatures
may each be inclusive or exclusive, and all filters have to hold at once. -/

namespace LedgerWire.Rpc

open Json (Codec Names Record)

/-! ## Choices -/

/-- In which order the history is returned. -/
inductive HistoryOrder where
  /-- Oldest first. -/
  | asc
  /-- Newest first. -/
  | desc
deriving DecidableEq, Repr

namespace HistoryOrder

/-- The names of the values. -/
def names : Names HistoryOrder where
  all := [asc, desc]
  name
    | asc => "asc"
    | desc => "desc"

/-- A value as its name. -/
def codec : Codec HistoryOrder := names.codec

end HistoryOrder

/-- How the returned transactions ended. -/
inductive Outcome where
  | succeeded
  | failed
  | any
deriving DecidableEq, Repr

namespace Outcome

/-- The names of the values. -/
def names : Names Outcome where
  all := [succeeded, failed, any]
  name
    | succeeded => "succeeded"
    | failed => "failed"
    | any => "any"

/-- A value as its name. -/
def codec : Codec Outcome := names.codec

end Outcome

/-- Which transactions on token accounts of the address are included. -/
inductive TokenAccountScope where
  | none
  /-- Those that changed a balance. -/
  | balanceChanged
  | all
deriving DecidableEq, Repr

namespace TokenAccountScope

/-- The names of the values. -/
def names : Names TokenAccountScope where
  all := [none, balanceChanged, all]
  name
    | none => "none"
    | balanceChanged => "balanceChanged"
    | all => "all"

/-- A value as its name. -/
def codec : Codec TokenAccountScope := names.codec

end TokenAccountScope

/-! ## Bounds -/

/-- Bounds on the slot. -/
structure SlotBounds where
  gte : Option UInt64 := none
  gt : Option UInt64 := none
  lte : Option UInt64 := none
  lt : Option UInt64 := none
deriving DecidableEq

namespace SlotBounds

/-- The fields. -/
def record : Record SlotBounds where
  types := _
  fields :=
    .cons (.optional "gte" Codec.u64) <|
    .cons (.optional "gt" Codec.u64) <|
    .cons (.optional "lte" Codec.u64) <|
    .cons (.optional "lt" Codec.u64) .nil
  toRow o := (o.gte, o.gt, o.lte, o.lt, ())
  ofRow | (gte, gt, lte, lt, ()) => ⟨gte, gt, lte, lt⟩

/-- The value as an object. -/
def codec : Codec SlotBounds := record.codec

/-- The slots from `start` up to but not including `stop`. -/
def halfOpen (start stop : UInt64) : SlotBounds :=
  { gte := some start, lt := some stop }

end SlotBounds

/-- Bounds on the time of the block. -/
structure TimeBounds where
  gte : Option UInt64 := none
  gt : Option UInt64 := none
  lte : Option UInt64 := none
  lt : Option UInt64 := none
  eq : Option UInt64 := none
deriving DecidableEq

namespace TimeBounds

/-- The fields. -/
def record : Record TimeBounds where
  types := _
  fields :=
    .cons (.optional "gte" Codec.u64) <|
    .cons (.optional "gt" Codec.u64) <|
    .cons (.optional "lte" Codec.u64) <|
    .cons (.optional "lt" Codec.u64) <|
    .cons (.optional "eq" Codec.u64) .nil
  toRow o := (o.gte, o.gt, o.lte, o.lt, o.eq, ())
  ofRow | (gte, gt, lte, lt, eq, ()) => ⟨gte, gt, lte, lt, eq⟩

/-- The value as an object. -/
def codec : Codec TimeBounds := record.codec

end TimeBounds

/-- Bounds on the signature. -/
structure SignatureBounds where
  gte : Option Signature := none
  gt : Option Signature := none
  lte : Option Signature := none
  lt : Option Signature := none
deriving DecidableEq

namespace SignatureBounds

/-- The fields. -/
def record : Record SignatureBounds where
  types := _
  fields :=
    .cons (.optional "gte" Codec.signature) <|
    .cons (.optional "gt" Codec.signature) <|
    .cons (.optional "lte" Codec.signature) <|
    .cons (.optional "lt" Codec.signature) .nil
  toRow o := (o.gte, o.gt, o.lte, o.lt, ())
  ofRow | (gte, gt, lte, lt, ()) => ⟨gte, gt, lte, lt⟩

/-- The value as an object. -/
def codec : Codec SignatureBounds := record.codec

end SignatureBounds

/-! ## Filters -/

/-- What the returned transactions have to satisfy. -/
structure HistoryFilters where
  slot : Option SlotBounds := none
  blockTime : Option TimeBounds := none
  signature : Option SignatureBounds := none
  status : Option Outcome := none
  tokenAccounts : Option TokenAccountScope := none
deriving DecidableEq

namespace HistoryFilters

/-- The fields. -/
def record : Record HistoryFilters where
  types := _
  fields :=
    .cons (.optional "slot" SlotBounds.codec) <|
    .cons (.optional "blockTime" TimeBounds.codec) <|
    .cons (.optional "signature" SignatureBounds.codec) <|
    .cons (.optional "status" Outcome.codec) <|
    .cons (.optional "tokenAccounts" TokenAccountScope.codec) .nil
  toRow o := (o.slot, o.blockTime, o.signature, o.status, o.tokenAccounts, ())
  ofRow
    | (slot, blockTime, signature, status, tokenAccounts, ()) =>
      ⟨slot, blockTime, signature, status, tokenAccounts⟩

/-- The value as an object. -/
def codec : Codec HistoryFilters := record.codec

/-- What can be set. -/
inductive Change where
  | slot (v : SlotBounds)
  | blockTime (v : TimeBounds)
  | signature (v : SignatureBounds)
  | status (v : Outcome)
  | tokenAccounts (v : TokenAccountScope)

/-- Sets one option. -/
def apply (o : HistoryFilters) : Change → HistoryFilters
  | .slot v => { o with slot := some v }
  | .blockTime v => { o with blockTime := some v }
  | .signature v => { o with signature := some v }
  | .status v => { o with status := some v }
  | .tokenAccounts v => { o with tokenAccounts := some v }

end HistoryFilters

/-- How the history of an address is returned. -/
structure HistoryOptions where
  transactionDetails : Option DetailLevel := none
  sortOrder : Option HistoryOrder := none
  commitment : Option Commitment := none
  minContextSlot : Option UInt64 := none
  limit : Option UInt64 := none
  paginationToken : Option String := none
  encoding : Option TransactionEncoding := none
  maxSupportedTransactionVersion : Option UInt8 := none
  filters : Option HistoryFilters := none
deriving DecidableEq

namespace HistoryOptions

/-- The fields of the options. -/
def record : Record HistoryOptions where
  types := _
  fields :=
    .cons (.optional "transactionDetails" DetailLevel.codec) <|
    .cons (.optional "sortOrder" HistoryOrder.codec) <|
    .cons (.optional "commitment" Commitment.codec) <|
    .cons (.optional "minContextSlot" Codec.u64) <|
    .cons (.optional "limit" Codec.u64) <|
    .cons (.optional "paginationToken" Codec.string) <|
    .cons (.optional "encoding" TransactionEncoding.codec) <|
    .cons (.optional "maxSupportedTransactionVersion" Codec.u8) <|
    .cons (.optional "filters" HistoryFilters.codec) .nil
  toRow o :=
    (o.transactionDetails, o.sortOrder, o.commitment, o.minContextSlot, o.limit,
     o.paginationToken, o.encoding, o.maxSupportedTransactionVersion, o.filters, ())
  ofRow
    | (transactionDetails, sortOrder, commitment, minContextSlot, limit, paginationToken,
       encoding, maxSupportedTransactionVersion, filters, ()) =>
      ⟨transactionDetails, sortOrder, commitment, minContextSlot, limit, paginationToken,
       encoding, maxSupportedTransactionVersion, filters⟩

/-- The options as an object. -/
def codec : Codec HistoryOptions := record.codec

/-- What can be set. -/
inductive Change where
  | transactionDetails (v : DetailLevel)
  | sortOrder (v : HistoryOrder)
  | commitment (v : Commitment)
  | minContextSlot (v : UInt64)
  | limit (v : UInt64)
  | paginationToken (v : String)
  | encoding (v : TransactionEncoding)
  | maxSupportedTransactionVersion (v : UInt8)
  | filters (v : HistoryFilters)

/-- Sets one option. -/
def apply (o : HistoryOptions) : Change → HistoryOptions
  | .transactionDetails v => { o with transactionDetails := some v }
  | .sortOrder v => { o with sortOrder := some v }
  | .commitment v => { o with commitment := some v }
  | .minContextSlot v => { o with minContextSlot := some v }
  | .limit v => { o with limit := some v }
  | .paginationToken v => { o with paginationToken := some v }
  | .encoding v => { o with encoding := some v }
  | .maxSupportedTransactionVersion v => { o with maxSupportedTransactionVersion := some v }
  | .filters v => { o with filters := some v }

end HistoryOptions

end LedgerWire.Rpc
