import LedgerWire.Rpc.Options.Accounts
import LedgerWire.Rpc.Options.Bundle
import LedgerWire.Rpc.Options.History
import LedgerWire.Rpc.Options.Network
import LedgerWire.Rpc.Options.Transactions

set_option autoImplicit false

/-! # Calls

A call is a method with its arguments. The arguments travel by position, and the options of a call,
if there are any, come last. Transactions travel as text: as Base58 if the options ask for it, and
as Base64 otherwise. -/

namespace LedgerWire.Rpc

open Json (Codec)

/-! ## Methods -/

/-- The methods that can be called. -/
inductive Method where
  | getAccountInfo
  | getBalance
  | getBlock
  | getBlockHeight
  | getBlockProduction
  | getEpochInfo
  | getGenesisHash
  | getHealth
  | getIdentity
  | getInflationReward
  | getLargestAccounts
  | getLatestBlockhash
  | getLeaderSchedule
  | getMinimumBalanceForRentExemption
  | getMultipleAccounts
  | getProgramAccounts
  | getProgramAccountsV2
  | getSignatureStatuses
  | getSignaturesForAddress
  | getSlot
  | getSupply
  | getTokenAccountsByDelegate
  | getTokenAccountsByOwner
  | getTransaction
  | getTransactionsForAddress
  | getVersion
  | getVoteAccounts
  | requestAirdrop
  | sendTransaction
  | simulateTransaction
  | simulateBundle
deriving DecidableEq, Repr

/-- The name that is sent. -/
def Method.name : Method → String
  | getAccountInfo => "getAccountInfo"
  | getBalance => "getBalance"
  | getBlock => "getBlock"
  | getBlockHeight => "getBlockHeight"
  | getBlockProduction => "getBlockProduction"
  | getEpochInfo => "getEpochInfo"
  | getGenesisHash => "getGenesisHash"
  | getHealth => "getHealth"
  | getIdentity => "getIdentity"
  | getInflationReward => "getInflationReward"
  | getLargestAccounts => "getLargestAccounts"
  | getLatestBlockhash => "getLatestBlockhash"
  | getLeaderSchedule => "getLeaderSchedule"
  | getMinimumBalanceForRentExemption => "getMinimumBalanceForRentExemption"
  | getMultipleAccounts => "getMultipleAccounts"
  | getProgramAccounts => "getProgramAccounts"
  | getProgramAccountsV2 => "getProgramAccountsV2"
  | getSignatureStatuses => "getSignatureStatuses"
  | getSignaturesForAddress => "getSignaturesForAddress"
  | getSlot => "getSlot"
  | getSupply => "getSupply"
  | getTokenAccountsByDelegate => "getTokenAccountsByDelegate"
  | getTokenAccountsByOwner => "getTokenAccountsByOwner"
  | getTransaction => "getTransaction"
  | getTransactionsForAddress => "getTransactionsForAddress"
  | getVersion => "getVersion"
  | getVoteAccounts => "getVoteAccounts"
  | requestAirdrop => "requestAirdrop"
  | sendTransaction => "sendTransaction"
  | simulateTransaction => "simulateTransaction"
  | simulateBundle => "simulateBundle"

/-! ## Arguments -/

/-- A method with its arguments and options. -/
inductive Call where
  | getAccountInfo (account : Address) (options : Option AccountOptions)
  | getBalance (account : Address) (options : Option ContextOptions)
  | getBlock (slot : UInt64) (options : Option BlockOptions)
  | getBlockHeight (options : Option ContextOptions)
  | getBlockProduction (options : Option BlockProductionOptions)
  | getEpochInfo (options : Option ContextOptions)
  | getGenesisHash
  | getHealth
  | getIdentity
  | getInflationReward (addresses : List Address) (options : Option EpochOptions)
  | getLargestAccounts (options : Option LargestAccountsOptions)
  | getLatestBlockhash (options : Option ContextOptions)
  | getLeaderSchedule (slot : Option UInt64) (options : Option LeaderScheduleOptions)
  | getMinimumBalanceForRentExemption (length : UInt64) (options : Option ContextOptions)
  | getMultipleAccounts (accounts : List Address) (options : Option AccountOptions)
  | getProgramAccounts (program : Address) (options : Option ScanOptions)
  | getProgramAccountsV2 (program : Address) (options : Option PagedScanOptions)
  | getSignatureStatuses (signatures : List Signature) (options : Option SignatureStatusOptions)
  | getSignaturesForAddress (address : Address) (options : Option SignaturesOptions)
  | getSlot (options : Option ContextOptions)
  | getSupply (options : Option SupplyOptions)
  | getTokenAccountsByDelegate (delegate : Address) (filter : TokenFilter)
      (options : Option AccountOptions)
  | getTokenAccountsByOwner (owner : Address) (filter : TokenFilter)
      (options : Option AccountOptions)
  | getTransaction (signature : Signature) (options : Option TransactionOptions)
  | getTransactionsForAddress (address : Address) (options : Option HistoryOptions)
  | getVersion
  | getVoteAccounts (options : Option VoteAccountsOptions)
  | requestAirdrop (account : Address) (lamports : UInt64) (options : Option AirdropOptions)
  | sendTransaction (transaction : Bytes) (options : Option SendOptions)
  | simulateTransaction (transaction : Bytes) (options : Option SimulateOptions)
  | simulateBundle (transactions : List Bytes) (options : Option BundleOptions)
deriving DecidableEq

namespace Call

/-- The method that is called. -/
def method : Call → Method
  | getAccountInfo .. => .getAccountInfo
  | getBalance .. => .getBalance
  | getBlock .. => .getBlock
  | getBlockHeight .. => .getBlockHeight
  | getBlockProduction .. => .getBlockProduction
  | getEpochInfo .. => .getEpochInfo
  | getGenesisHash => .getGenesisHash
  | getHealth => .getHealth
  | getIdentity => .getIdentity
  | getInflationReward .. => .getInflationReward
  | getLargestAccounts .. => .getLargestAccounts
  | getLatestBlockhash .. => .getLatestBlockhash
  | getLeaderSchedule .. => .getLeaderSchedule
  | getMinimumBalanceForRentExemption .. => .getMinimumBalanceForRentExemption
  | getMultipleAccounts .. => .getMultipleAccounts
  | getProgramAccounts .. => .getProgramAccounts
  | getProgramAccountsV2 .. => .getProgramAccountsV2
  | getSignatureStatuses .. => .getSignatureStatuses
  | getSignaturesForAddress .. => .getSignaturesForAddress
  | getSlot .. => .getSlot
  | getSupply .. => .getSupply
  | getTokenAccountsByDelegate .. => .getTokenAccountsByDelegate
  | getTokenAccountsByOwner .. => .getTokenAccountsByOwner
  | getTransaction .. => .getTransaction
  | getTransactionsForAddress .. => .getTransactionsForAddress
  | getVersion => .getVersion
  | getVoteAccounts .. => .getVoteAccounts
  | requestAirdrop .. => .requestAirdrop
  | sendTransaction .. => .sendTransaction
  | simulateTransaction .. => .simulateTransaction
  | simulateBundle .. => .simulateBundle

/-- The text of a transaction. -/
def transactionText (encoding : Option TransactionEncoding) (bytes : Bytes) : String :=
  match encoding with
  | some .base58 => Base58.encode bytes
  | some .binary => Base58.encode bytes
  | _ => Base64.encode bytes

/-- The options as the last argument, if there are any. -/
def optionsParam {α : Type} (c : Codec α) : Option α → List Json
  | some options => [c.encode options]
  | none => []

/-- The arguments by position. The slot of a leader schedule stands before the options, so it is
    null where there are options without a slot. -/
def params : Call → List Json
  | getAccountInfo account o => Codec.address.encode account :: optionsParam AccountOptions.codec o
  | getBalance account o => Codec.address.encode account :: optionsParam ContextOptions.codec o
  | getBlock slot o => .natural slot :: optionsParam BlockOptions.codec o
  | getBlockHeight o => optionsParam ContextOptions.codec o
  | getBlockProduction o => optionsParam BlockProductionOptions.codec o
  | getEpochInfo o => optionsParam ContextOptions.codec o
  | getGenesisHash => []
  | getHealth => []
  | getIdentity => []
  | getInflationReward addresses o =>
    Codec.address.list.encode addresses :: optionsParam EpochOptions.codec o
  | getLargestAccounts o => optionsParam LargestAccountsOptions.codec o
  | getLatestBlockhash o => optionsParam ContextOptions.codec o
  | getLeaderSchedule none none => []
  | getLeaderSchedule slot o =>
    Codec.u64.nullable.encode slot :: optionsParam LeaderScheduleOptions.codec o
  | getMinimumBalanceForRentExemption length o =>
    .natural length :: optionsParam ContextOptions.codec o
  | getMultipleAccounts accounts o =>
    Codec.address.list.encode accounts :: optionsParam AccountOptions.codec o
  | getProgramAccounts program o =>
    Codec.address.encode program :: optionsParam ScanOptions.codec o
  | getProgramAccountsV2 program o =>
    Codec.address.encode program :: optionsParam PagedScanOptions.codec o
  | getSignatureStatuses signatures o =>
    Codec.signature.list.encode signatures :: optionsParam SignatureStatusOptions.codec o
  | getSignaturesForAddress address o =>
    Codec.address.encode address :: optionsParam SignaturesOptions.codec o
  | getSlot o => optionsParam ContextOptions.codec o
  | getSupply o => optionsParam SupplyOptions.codec o
  | getTokenAccountsByDelegate delegate filter o =>
    Codec.address.encode delegate :: TokenFilter.codec.encode filter
      :: optionsParam AccountOptions.codec o
  | getTokenAccountsByOwner owner filter o =>
    Codec.address.encode owner :: TokenFilter.codec.encode filter
      :: optionsParam AccountOptions.codec o
  | getTransaction signature o =>
    Codec.signature.encode signature :: optionsParam TransactionOptions.codec o
  | getTransactionsForAddress address o =>
    Codec.address.encode address :: optionsParam HistoryOptions.codec o
  | getVersion => []
  | getVoteAccounts o => optionsParam VoteAccountsOptions.codec o
  | requestAirdrop account lamports o =>
    Codec.address.encode account :: .natural lamports :: optionsParam AirdropOptions.codec o
  | sendTransaction transaction o =>
    .string (transactionText (o.bind (·.encoding)) transaction)
      :: optionsParam SendOptions.codec o
  | simulateTransaction transaction o =>
    .string (transactionText (o.bind (·.encoding)) transaction)
      :: optionsParam SimulateOptions.codec o
  | simulateBundle transactions o =>
    .object [("encodedTransactions", .array
        (transactions.map fun t => .string (transactionText (o.bind (·.transactionEncoding)) t)))]
      :: optionsParam BundleOptions.codec o

end Call

end LedgerWire.Rpc
