import LedgerWire.Rpc.Terms

set_option autoImplicit false

/-! # Options of transaction requests

Options for sending, simulating and looking up transactions. A plain record for sending is preset to
Base64, whereas reading an object that does not name an encoding leaves the encoding open. -/

namespace LedgerWire.Rpc

open Json (Codec Record)

/-! ## Submission -/

/-- How a transaction is checked and forwarded. -/
structure SendOptions where
  skipPreflight : Bool := false
  preflightCommitment : Option Commitment := none
  encoding : Option TransactionEncoding := some .base64
  maxRetries : Option UInt64 := none
  minContextSlot : Option UInt64 := none
deriving DecidableEq

namespace SendOptions

/-- The fields of the options. -/
def record : Record SendOptions where
  types := _
  fields :=
    .cons (.defaulted "skipPreflight" Codec.bool false) <|
    .cons (.optional "preflightCommitment" Commitment.codec) <|
    .cons (.optional "encoding" TransactionEncoding.codec) <|
    .cons (.optional "maxRetries" Codec.u64) <|
    .cons (.optional "minContextSlot" Codec.u64) .nil
  toRow o :=
    (o.skipPreflight, o.preflightCommitment, o.encoding, o.maxRetries, o.minContextSlot, ())
  ofRow
    | (skipPreflight, preflightCommitment, encoding, maxRetries, minContextSlot, ()) =>
      ⟨skipPreflight, preflightCommitment, encoding, maxRetries, minContextSlot⟩

/-- The options as an object. -/
def codec : Codec SendOptions := record.codec

/-- What can be set. -/
inductive Change where
  | skipPreflight (v : Bool)
  | preflightCommitment (v : Commitment)
  | maxRetries (v : UInt64)
  | minContextSlot (v : UInt64)

/-- Sets one option. -/
def apply (o : SendOptions) : Change → SendOptions
  | .skipPreflight v => { o with skipPreflight := v }
  | .preflightCommitment v => { o with preflightCommitment := some v }
  | .maxRetries v => { o with maxRetries := some v }
  | .minContextSlot v => { o with minContextSlot := some v }

end SendOptions

/-! ## Simulation -/

/-- The accounts whose state after the simulation is returned. -/
structure ReturnedAccounts where
  encoding : Option AccountEncoding := none
  addresses : List Address
deriving DecidableEq

namespace ReturnedAccounts

/-- The fields. -/
def record : Record ReturnedAccounts where
  types := _
  fields :=
    .cons (.optional "encoding" AccountEncoding.codec) <|
    .cons (.required "addresses" Codec.address.list) .nil
  toRow o := (o.encoding, o.addresses, ())
  ofRow | (encoding, addresses, ()) => ⟨encoding, addresses⟩

/-- The value as an object. -/
def codec : Codec ReturnedAccounts := record.codec

end ReturnedAccounts

/-- How a transaction is simulated. -/
structure SimulateOptions where
  sigVerify : Bool := false
  replaceRecentBlockhash : Bool := false
  commitment : Option Commitment := none
  encoding : Option TransactionEncoding := none
  accounts : Option ReturnedAccounts := none
  minContextSlot : Option UInt64 := none
  innerInstructions : Bool := false
deriving DecidableEq

namespace SimulateOptions

/-- The fields of the options. -/
def record : Record SimulateOptions where
  types := _
  fields :=
    .cons (.defaulted "sigVerify" Codec.bool false) <|
    .cons (.defaulted "replaceRecentBlockhash" Codec.bool false) <|
    .cons (.optional "commitment" Commitment.codec) <|
    .cons (.optional "encoding" TransactionEncoding.codec) <|
    .cons (.optional "accounts" ReturnedAccounts.codec) <|
    .cons (.optional "minContextSlot" Codec.u64) <|
    .cons (.defaulted "innerInstructions" Codec.bool false) .nil
  toRow o :=
    (o.sigVerify, o.replaceRecentBlockhash, o.commitment, o.encoding, o.accounts,
     o.minContextSlot, o.innerInstructions, ())
  ofRow
    | (sigVerify, replaceRecentBlockhash, commitment, encoding, accounts, minContextSlot,
       innerInstructions, ()) =>
      ⟨sigVerify, replaceRecentBlockhash, commitment, encoding, accounts, minContextSlot,
       innerInstructions⟩

/-- The options as an object. -/
def codec : Codec SimulateOptions := record.codec

/-- What can be set. -/
inductive Change where
  | sigVerify (v : Bool)
  | replaceRecentBlockhash (v : Bool)
  | commitment (v : Commitment)
  | encoding (v : TransactionEncoding)
  | accounts (addresses : List Address) (encoding : AccountEncoding)

/-- Sets one option. -/
def apply (o : SimulateOptions) : Change → SimulateOptions
  | .sigVerify v => { o with sigVerify := v }
  | .replaceRecentBlockhash v => { o with replaceRecentBlockhash := v }
  | .commitment v => { o with commitment := some v }
  | .encoding v => { o with encoding := some v }
  | .accounts addresses encoding => { o with accounts := some ⟨some encoding, addresses⟩ }

end SimulateOptions

/-! ## Look-up -/

/-- Whether the whole ledger is searched, and not only what the node remembers. -/
structure SignatureStatusOptions where
  searchTransactionHistory : Bool := false
deriving DecidableEq

namespace SignatureStatusOptions

/-- The fields of the options. -/
def record : Record SignatureStatusOptions where
  types := _
  fields :=
    .cons (.required "searchTransactionHistory" Codec.bool) .nil
  toRow o := (o.searchTransactionHistory, ())
  ofRow | (searchTransactionHistory, ()) => ⟨searchTransactionHistory⟩

/-- The options as an object. -/
def codec : Codec SignatureStatusOptions := record.codec

end SignatureStatusOptions

/-- Which signatures of an address are returned, newest first. -/
structure SignaturesOptions where
  before : Option Signature := none
  stopAt : Option Signature := none
  limit : Option UInt64 := none
  commitment : Option Commitment := none
  minContextSlot : Option UInt64 := none
deriving DecidableEq

namespace SignaturesOptions

/-- The fields of the options. -/
def record : Record SignaturesOptions where
  types := _
  fields :=
    .cons (.optional "before" Codec.signature) <|
    .cons (.optional "until" Codec.signature) <|
    .cons (.optional "limit" Codec.u64) <|
    .cons (.optional "commitment" Commitment.codec) <|
    .cons (.optional "minContextSlot" Codec.u64) .nil
  toRow o := (o.before, o.stopAt, o.limit, o.commitment, o.minContextSlot, ())
  ofRow
    | (before, stopAt, limit, commitment, minContextSlot, ()) =>
      ⟨before, stopAt, limit, commitment, minContextSlot⟩

/-- The options as an object. -/
def codec : Codec SignaturesOptions := record.codec

/-- What can be set. -/
inductive Change where
  | before (v : Signature)
  | stopAt (v : Signature)
  | limit (v : UInt64)

/-- Sets one option. -/
def apply (o : SignaturesOptions) : Change → SignaturesOptions
  | .before v => { o with before := some v }
  | .stopAt v => { o with stopAt := some v }
  | .limit v => { o with limit := some v }

end SignaturesOptions

/-- How a transaction is returned. -/
structure TransactionOptions where
  encoding : Option TransactionEncoding := none
  commitment : Option Commitment := none
  maxSupportedTransactionVersion : Option UInt8 := none
deriving DecidableEq

namespace TransactionOptions

/-- The fields of the options. -/
def record : Record TransactionOptions where
  types := _
  fields :=
    .cons (.optional "encoding" TransactionEncoding.codec) <|
    .cons (.optional "commitment" Commitment.codec) <|
    .cons (.optional "maxSupportedTransactionVersion" Codec.u8) .nil
  toRow o := (o.encoding, o.commitment, o.maxSupportedTransactionVersion, ())
  ofRow
    | (encoding, commitment, maxSupportedTransactionVersion, ()) =>
      ⟨encoding, commitment, maxSupportedTransactionVersion⟩

/-- The options as an object. -/
def codec : Codec TransactionOptions := record.codec

/-- What can be set. -/
inductive Change where
  | encoding (v : TransactionEncoding)
  | commitment (v : Commitment)
  | maxSupportedTransactionVersion (v : UInt8)

/-- Sets one option. -/
def apply (o : TransactionOptions) : Change → TransactionOptions
  | .encoding v => { o with encoding := some v }
  | .commitment v => { o with commitment := some v }
  | .maxSupportedTransactionVersion v => { o with maxSupportedTransactionVersion := some v }

end TransactionOptions

/-- How a block is returned. -/
structure BlockOptions where
  encoding : Option TransactionEncoding := none
  transactionDetails : Option DetailLevel := none
  rewards : Option Bool := none
  commitment : Option Commitment := none
  maxSupportedTransactionVersion : Option UInt8 := none
deriving DecidableEq

namespace BlockOptions

/-- The fields of the options. -/
def record : Record BlockOptions where
  types := _
  fields :=
    .cons (.optional "encoding" TransactionEncoding.codec) <|
    .cons (.optional "transactionDetails" DetailLevel.codec) <|
    .cons (.optional "rewards" Codec.bool) <|
    .cons (.optional "commitment" Commitment.codec) <|
    .cons (.optional "maxSupportedTransactionVersion" Codec.u8) .nil
  toRow o :=
    (o.encoding, o.transactionDetails, o.rewards, o.commitment, o.maxSupportedTransactionVersion,
     ())
  ofRow
    | (encoding, transactionDetails, rewards, commitment, maxSupportedTransactionVersion, ()) =>
      ⟨encoding, transactionDetails, rewards, commitment, maxSupportedTransactionVersion⟩

/-- The options as an object. -/
def codec : Codec BlockOptions := record.codec

/-- What can be set. -/
inductive Change where
  | encoding (v : TransactionEncoding)
  | transactionDetails (v : DetailLevel)
  | rewards (v : Bool)
  | maxSupportedTransactionVersion (v : UInt8)

/-- Sets one option. -/
def apply (o : BlockOptions) : Change → BlockOptions
  | .encoding v => { o with encoding := some v }
  | .transactionDetails v => { o with transactionDetails := some v }
  | .rewards v => { o with rewards := some v }
  | .maxSupportedTransactionVersion v => { o with maxSupportedTransactionVersion := some v }

end BlockOptions

end LedgerWire.Rpc
