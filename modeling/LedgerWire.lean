import LedgerWire.Bytes.Lemmas
import LedgerWire.SystemProgram.Operation
import LedgerWire.LookupTable.Operation
import LedgerWire.Instruction.Json
import LedgerWire.Rpc.Request
import LedgerWire.Rpc.Reply
import LedgerWire.Proofs.KeySpelling
import LedgerWire.Proofs.PayloadFormat
import LedgerWire.Proofs.PayloadTruncation
import LedgerWire.Proofs.Wire.Script
import LedgerWire.Proofs.Wire.Cursor
import LedgerWire.Proofs.Wire.Composition
import LedgerWire.Proofs.SystemProgram.Decoding
import LedgerWire.Proofs.SystemProgram.Refusal
import LedgerWire.Proofs.SystemProgram.Kinds
import LedgerWire.Proofs.SystemProgram.SeedLimit
import LedgerWire.Proofs.LookupTable.Creation
import LedgerWire.Proofs.LookupTable.Recovery
import LedgerWire.Proofs.LookupTable.Extension
import LedgerWire.Proofs.Derivation.BumpSearch
import LedgerWire.Proofs.Derivation.Separation
import LedgerWire.Proofs.Derivation.Binding
import LedgerWire.Proofs.Rpc.Identity
import LedgerWire.Proofs.Rpc.Rendering
import LedgerWire.Proofs.Rpc.Numbering
import LedgerWire.Proofs.Rpc.CarriedBytes
import LedgerWire.Proofs.Rpc.Batch
import LedgerWire.Proofs.Rpc.Correlation
import LedgerWire.Proofs.Rpc.SimulationBank
import LedgerWire.Proofs.Rpc.MergedOptions
import LedgerWire.Proofs.Rpc.Setters
import LedgerWire.Proofs.Rpc.Restored
import LedgerWire.Proofs.Rpc.RemoteError
