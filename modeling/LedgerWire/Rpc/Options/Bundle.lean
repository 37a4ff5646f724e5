import LedgerWire.Rpc.SimulationBank

set_option autoImplicit false

/-! # Options of a bundle simulation

A bundle is an ordered list of transactions. Before and after each of them the state of some
accounts can be captured, which takes one entry for each transaction, with null where nothing is
captured. The bank may be given as a value whose shape has not been checked yet; a shape that is not
accepted leaves the options as they were. -/

namespace LedgerWire.Rpc

open Json (Codec Record)

/-- Accounts whose state is captured. -/
structure CapturedAccounts where
  addresses : List Address
  encoding : Option AccountEncoding
deriving DecidableEq

namespace CapturedAccounts

/-- The fields. -/
def record : Record CapturedAccounts where
  types := _
  fields :=
    .cons (.required "addresses" Codec.address.list) <|
    .cons (.optional "encoding" AccountEncoding.codec) .nil
  toRow a := (a.addresses, a.encoding, ())
  ofRow | (addresses, encoding, ()) => ⟨addresses, encoding⟩

/-- The value as an object. -/
def codec : Codec CapturedAccounts := record.codec

end CapturedAccounts

/-- How a bundle is simulated. -/
structure BundleOptions where
  before : List (Option CapturedAccounts) := []
  after : List (Option CapturedAccounts) := []
  transactionEncoding : Option TransactionEncoding := none
  simulationBank : Option SimulationBank := none
  skipSigVerify : Bool := false
  replaceRecentBlockhash : Bool := false
deriving DecidableEq

namespace BundleOptions

/-- The fields of the options. -/
def record : Record BundleOptions where
  types := _
  fields :=
    .cons (.required "preExecutionAccountsConfigs" CapturedAccounts.codec.nullable.list) <|
    .cons (.required "postExecutionAccountsConfigs" CapturedAccounts.codec.nullable.list) <|
    .cons (.optional "transactionEncoding" TransactionEncoding.codec) <|
    .cons (.optional "simulationBank" SimulationBank.codec) <|
    .cons (.defaulted "skipSigVerify" Codec.bool false) <|
    .cons (.defaulted "replaceRecentBlockhash" Codec.bool false) .nil
  toRow o :=
    (o.before, o.after, o.transactionEncoding, o.simulationBank, o.skipSigVerify,
     o.replaceRecentBlockhash, ())
  ofRow
    | (before, after, transactionEncoding, simulationBank, skipSigVerify, replaceRecentBlockhash,
       ()) =>
      ⟨before, after, transactionEncoding, simulationBank, skipSigVerify, replaceRecentBlockhash⟩

/-- The options as an object. -/
def codec : Codec BundleOptions := record.codec

/-- What can be set. -/
inductive Change where
  | transactionEncoding (v : TransactionEncoding)
  | simulationBank (v : SimulationBank)
  /-- A bank whose shape has still to be checked. -/
  | simulationBankValue (v : Json)
  | skipSigVerify (v : Bool)
  | replaceRecentBlockhash (v : Bool)

/-- Sets one option, unless the value is refused. -/
def apply (o : BundleOptions) : Change → Except RpcError BundleOptions
  | .transactionEncoding v => .ok { o with transactionEncoding := some v }
  | .simulationBank v => .ok { o with simulationBank := some v }
  | .simulationBankValue v =>
    (SimulationBank.ofJson v).map fun bank => { o with simulationBank := some bank }
  | .skipSigVerify v => .ok { o with skipSigVerify := v }
  | .replaceRecentBlockhash v => .ok { o with replaceRecentBlockhash := v }

end BundleOptions

end LedgerWire.Rpc
