import LedgerWire.Rpc.ScanFilter
import LedgerWire.Rpc.Terms

set_option autoImplicit false

/-! # Options of account queries

Options are set one by one. For each kind of options, `Change` names what can be set and `apply`
sets it; nothing else changes.

A scan of a program's accounts takes all options of a single account query besides its own. They
stand in one object on the wire, where the options of the account query are read last, from the
members that the scan did not know. -/

namespace LedgerWire.Rpc

open Json (Codec Names Record)

/-! ## Single accounts -/

/-- How accounts are returned. -/
structure AccountOptions where
  encoding : Option AccountEncoding := none
  dataSlice : Option DataSlice := none
  commitment : Option Commitment := none
  minContextSlot : Option UInt64 := none
deriving DecidableEq

namespace AccountOptions

/-- The fields of the options. -/
def record : Record AccountOptions where
  types := _
  fields :=
    .cons (.optional "encoding" AccountEncoding.codec) <|
    .cons (.optional "dataSlice" DataSlice.codec) <|
    .cons (.optional "commitment" Commitment.codec) <|
    .cons (.optional "minContextSlot" Codec.u64) .nil
  toRow o := (o.encoding, o.dataSlice, o.commitment, o.minContextSlot, ())
  ofRow
    | (encoding, dataSlice, commitment, minContextSlot, ()) =>
      ⟨encoding, dataSlice, commitment, minContextSlot⟩

/-- The options as an object. -/
def codec : Codec AccountOptions := record.codec

/-- What can be set. -/
inductive Change where
  | encoding (value : AccountEncoding)
  | dataSlice (offset length : UInt64)
  | commitment (value : Commitment)
  | minContextSlot (value : UInt64)

/-- Sets one option. -/
def apply (o : AccountOptions) : Change → AccountOptions
  | .encoding v => { o with encoding := some v }
  | .dataSlice offset length => { o with dataSlice := some ⟨offset, length⟩ }
  | .commitment v => { o with commitment := some v }
  | .minContextSlot v => { o with minContextSlot := some v }

end AccountOptions

/-! ## Scans -/

namespace AccountOptions

/-- The encoding, as a member of the options of a scan. -/
def mergedEncoding : Json.Field (Option AccountEncoding) :=
  (Json.Field.optional "encoding" AccountEncoding.names.laxCodec).setAside

/-- The slice, as a member of the options of a scan. -/
def mergedDataSlice : Json.Field (Option DataSlice) :=
  (Json.Field.optional "dataSlice" DataSlice.codec).setAside

/-- The commitment, as a member of the options of a scan. -/
def mergedCommitment : Json.Field (Option Commitment) :=
  (Json.Field.optional "commitment" Commitment.names.laxCodec).setAside

/-- The least slot, as a member of the options of a scan. -/
def mergedMinContextSlot : Json.Field (Option UInt64) :=
  (Json.Field.optional "minContextSlot" Codec.u64).setAside

end AccountOptions

/-- How the accounts of a program are selected and returned. -/
structure ScanOptions where
  filters : Option (List ScanFilter) := none
  account : AccountOptions := {}
  withContext : Option Bool := none
  sortResults : Option Bool := none
deriving DecidableEq

namespace ScanOptions

/-- The fields of the options. -/
def record : Record ScanOptions where
  types := _
  fields :=
    .cons (.optional "filters" ScanFilter.codec.list) <|
    .cons AccountOptions.mergedEncoding <|
    .cons AccountOptions.mergedDataSlice <|
    .cons AccountOptions.mergedCommitment <|
    .cons AccountOptions.mergedMinContextSlot <|
    .cons (.optional "withContext" Codec.bool) <|
    .cons (.optional "sortResults" Codec.bool) .nil
  toRow o :=
    (o.filters, o.account.encoding, o.account.dataSlice, o.account.commitment,
     o.account.minContextSlot, o.withContext, o.sortResults, ())
  ofRow
    | (filters, encoding, dataSlice, commitment, minContextSlot, withContext, sortResults, ()) =>
      ⟨filters, ⟨encoding, dataSlice, commitment, minContextSlot⟩, withContext, sortResults⟩

/-- The options as an object. -/
def codec : Codec ScanOptions := record.mergedCodec

/-- What can be set. -/
inductive Change where
  | filters (value : List ScanFilter)
  | account (value : AccountOptions)
  | withContext (value : Bool)
  | sortResults (value : Bool)

/-- Sets one option. -/
def apply (o : ScanOptions) : Change → ScanOptions
  | .filters v => { o with filters := some v }
  | .account v => { o with account := v }
  | .withContext v => { o with withContext := some v }
  | .sortResults v => { o with sortResults := some v }

end ScanOptions

/-- How the accounts of a program are selected and returned page by page. -/
structure PagedScanOptions where
  filters : Option (List ScanFilter) := none
  account : AccountOptions := {}
  withContext : Option Bool := none
  sortResults : Option Bool := none
  limit : Option UInt64 := none
  paginationKey : Option String := none
  changedSinceSlot : Option UInt64 := none
deriving DecidableEq

namespace PagedScanOptions

/-- The fields of the options. -/
def record : Record PagedScanOptions where
  types := _
  fields :=
    .cons (.optional "filters" ScanFilter.codec.list) <|
    .cons AccountOptions.mergedEncoding <|
    .cons AccountOptions.mergedDataSlice <|
    .cons AccountOptions.mergedCommitment <|
    .cons AccountOptions.mergedMinContextSlot <|
    .cons (.optional "withContext" Codec.bool) <|
    .cons (.optional "sortResults" Codec.bool) <|
    .cons (.optional "limit" Codec.u64) <|
    .cons (.optional "paginationKey" Codec.string) <|
    .cons (.optional "changedSinceSlot" Codec.u64) .nil
  toRow o :=
    (o.filters, o.account.encoding, o.account.dataSlice, o.account.commitment,
     o.account.minContextSlot, o.withContext, o.sortResults, o.limit, o.paginationKey,
     o.changedSinceSlot, ())
  ofRow
    | (filters, encoding, dataSlice, commitment, minContextSlot, withContext, sortResults, limit,
       paginationKey, changedSinceSlot, ()) =>
      ⟨filters, ⟨encoding, dataSlice, commitment, minContextSlot⟩, withContext, sortResults, limit,
       paginationKey, changedSinceSlot⟩

/-- The options as an object. -/
def codec : Codec PagedScanOptions := record.mergedCodec

/-- What can be set. -/
inductive Change where
  | filters (value : List ScanFilter)
  | account (value : AccountOptions)
  | limit (value : UInt64)
  | paginationKey (value : String)
  | changedSinceSlot (value : UInt64)

/-- Sets one option. -/
def apply (o : PagedScanOptions) : Change → PagedScanOptions
  | .filters v => { o with filters := some v }
  | .account v => { o with account := v }
  | .limit v => { o with limit := some v }
  | .paginationKey v => { o with paginationKey := some v }
  | .changedSinceSlot v => { o with changedSinceSlot := some v }

end PagedScanOptions

/-! ## Token accounts -/

/-- Which token accounts of an owner are meant. -/
inductive TokenFilter where
  /-- The accounts that hold this mint. -/
  | mint (address : Address)
  /-- The accounts that belong to this token program. -/
  | program (address : Address)
deriving DecidableEq

namespace TokenFilter

/-- A filter as an object with a single key. -/
def codec : Codec TokenFilter :=
  Codec.variants
    (fun
      | mint a => ("mint", Codec.address.encode a)
      | program a => ("programId", Codec.address.encode a))
    [("mint", fun t => (Codec.address.decode t).map mint),
     ("programId", fun t => (Codec.address.decode t).map program)]

end TokenFilter

/-! ## Largest accounts -/

/-- Whether accounts are in circulation. -/
inductive Circulation where
  | circulating
  | nonCirculating
deriving DecidableEq, Repr

namespace Circulation

/-- The names of the two cases. -/
def names : Names Circulation where
  all := [circulating, nonCirculating]
  name
    | circulating => "circulating"
    | nonCirculating => "nonCirculating"

/-- A case as its name. -/
def codec : Codec Circulation := names.codec

end Circulation

/-- Which of the largest accounts are returned. -/
structure LargestAccountsOptions where
  commitment : Option Commitment := none
  filter : Option Circulation := none
deriving DecidableEq

namespace LargestAccountsOptions

/-- The fields of the options. -/
def record : Record LargestAccountsOptions where
  types := _
  fields :=
    .cons (.optional "commitment" Commitment.codec) <|
    .cons (.optional "filter" Circulation.codec) .nil
  toRow o := (o.commitment, o.filter, ())
  ofRow | (commitment, filter, ()) => ⟨commitment, filter⟩

/-- The options as an object. -/
def codec : Codec LargestAccountsOptions := record.codec

/-- What can be set. -/
inductive Change where
  | commitment (value : Commitment)
  | filter (value : Circulation)

/-- Sets one option. -/
def apply (o : LargestAccountsOptions) : Change → LargestAccountsOptions
  | .commitment v => { o with commitment := some v }
  | .filter v => { o with filter := some v }

end LargestAccountsOptions

/-! ## Airdrops -/

/-- How lamports are handed out on a test cluster. -/
structure AirdropOptions where
  recentBlockhash : Option String := none
  commitment : Option Commitment := none
deriving DecidableEq

namespace AirdropOptions

/-- The fields of the options. -/
def record : Record AirdropOptions where
  types := _
  fields :=
    .cons (.optional "recentBlockhash" Codec.string) <|
    .cons (.optional "commitment" Commitment.codec) .nil
  toRow o := (o.recentBlockhash, o.commitment, ())
  ofRow | (recentBlockhash, commitment, ()) => ⟨recentBlockhash, commitment⟩

/-- The options as an object. -/
def codec : Codec AirdropOptions := record.codec

/-- What can be set. -/
inductive Change where
  | recentBlockhash (value : String)
  | commitment (value : Commitment)

/-- Sets one option. -/
def apply (o : AirdropOptions) : Change → AirdropOptions
  | .recentBlockhash v => { o with recentBlockhash := some v }
  | .commitment v => { o with commitment := some v }

end AirdropOptions

end LedgerWire.Rpc
