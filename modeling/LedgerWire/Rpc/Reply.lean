import LedgerWire.Rpc.Error

set_option autoImplicit false

/-! # Replies

A reply names the request it answers and carries a result or an error. A result may well be null,
which is not the same as no result. An error wins over a result.

The replies to a batch come in any order. Each is matched to a request by its id, and where several
requests share an id their replies are handed out in the order in which they came. -/

namespace LedgerWire.Rpc

open Json (Codec Names ReadError Record)

/-! ## Common results -/

/-- The slot at which a result was found. -/
structure SlotContext where
  slot : UInt64
  apiVersion : Option String
deriving DecidableEq

namespace SlotContext

/-- The fields. -/
def record : Record SlotContext where
  types := _
  fields :=
    .cons (.required "slot" Codec.u64) <| .cons (.optional "apiVersion" Codec.string) .nil
  toRow c := (c.slot, c.apiVersion, ())
  ofRow | (slot, apiVersion, ()) => ⟨slot, apiVersion⟩

/-- The value as an object. -/
def codec : Codec SlotContext := record.codec

end SlotContext

/-- A result together with the slot at which it was found. -/
structure InContext (α : Type) where
  context : SlotContext
  value : α
deriving DecidableEq

namespace InContext

/-- The fields, for a result that is written by `c`. -/
def record {α : Type} (c : Codec α) : Record (InContext α) where
  types := _
  fields :=
    .cons (.required "context" SlotContext.codec) <| .cons (.required "value" c) .nil
  toRow r := (r.context, r.value, ())
  ofRow | (context, value, ()) => ⟨context, value⟩

/-- The value as an object. -/
def codec {α : Type} (c : Codec α) : Codec (InContext α) := (record c).codec

end InContext

/-- How far a transaction has come. -/
inductive ConfirmationStatus where
  | processed
  | confirmed
  | finalized
deriving DecidableEq, Repr

namespace ConfirmationStatus

/-- The names of the levels. -/
def names : Names ConfirmationStatus where
  all := [processed, confirmed, finalized]
  name
    | processed => "processed"
    | confirmed => "confirmed"
    | finalized => "finalized"

/-- A level as its name. -/
def codec : Codec ConfirmationStatus := names.codec

end ConfirmationStatus

/-- One transaction in the history of an address. -/
structure HistoryEntry where
  signature : Signature
  slot : UInt64
  /-- What went wrong, if the transaction failed. -/
  err : Option Json
  memo : Option String
  /-- The estimated time of the block, in seconds since 1970. -/
  blockTime : Option Int64
  confirmationStatus : Option ConfirmationStatus
  /-- The place of the transaction in its block. -/
  transactionIndex : Option UInt64

namespace HistoryEntry

/-- The fields. -/
def record : Record HistoryEntry where
  types := _
  fields :=
    .cons (.required "signature" Codec.signature) <|
    .cons (.required "slot" Codec.u64) <|
    .cons (.nullable "err" Codec.value) <|
    .cons (.nullable "memo" Codec.string) <|
    .cons (.nullable "blockTime" Codec.i64) <|
    .cons (.nullable "confirmationStatus" ConfirmationStatus.codec) <|
    .cons (.optional "transactionIndex" Codec.u64) .nil
  toRow e :=
    (e.signature, e.slot, e.err, e.memo, e.blockTime, e.confirmationStatus, e.transactionIndex, ())
  ofRow
    | (signature, slot, err, memo, blockTime, confirmationStatus, transactionIndex, ()) =>
      ⟨signature, slot, err, memo, blockTime, confirmationStatus, transactionIndex⟩

/-- The value as an object. -/
def codec : Codec HistoryEntry := record.codec

end HistoryEntry

/-! ## Single replies -/

/-- A reply with a result of type `α`. -/
structure Reply (α : Type) where
  version : String
  /-- The request it answers; none for some errors. -/
  id : Option UInt64
  result : Option α
  error : Option RemoteError

namespace Reply

variable {α : Type}

/-- The fields, for a result that is written by `c`. -/
def record (c : Codec α) : Record (Reply α) where
  types := _
  fields :=
    .cons (.required "jsonrpc" Codec.string) <|
    .cons (.optional "id" Codec.u64) <|
    .cons (.present "result" c) <|
    .cons (.optional "error" RemoteError.codec) .nil
  toRow r := (r.version, r.id, r.result, r.error, ())
  ofRow | (version, id, result, error, ()) => ⟨version, id, result, error⟩

/-- A reply as an object. -/
def codec (c : Codec α) : Codec (Reply α) := (record c).codec

/-- The result that a reply carries. -/
def outcome (reply : Reply α) : Except RpcError α :=
  match reply.error, reply.result with
  | some e, _ => .error (.remote e)
  | none, some a => .ok a
  | none, none => .error .missingResult

/-- The result in the text of a reply. -/
def read (c : Codec α) (text : String) : Except RpcError α :=
  match (codec c).fromText text with
  | .ok reply => reply.outcome
  | .error cause => .error (.serialization cause)

end Reply

/-! ## Replies to a batch -/

/-- Takes the first reply to `id` out of a list. -/
def takeReply (id : UInt64) : List (Reply Json) → Option (Reply Json × List (Reply Json))
  | [] => none
  | r :: rs =>
    if r.id = some id then some (r, rs)
    else (takeReply id rs).map fun (found, others) => (found, r :: others)

/-- The outcome of each request, in the order of the requests: each takes the first reply to its id
    that no request before it has taken. -/
def matchReplies : List UInt64 → List (Reply Json) → List (Except RpcError Json)
  | [], _ => []
  | id :: ids, replies =>
    match takeReply id replies with
    | some (reply, others) => reply.outcome :: matchReplies ids others
    | none => .error (.missingResponse id) :: matchReplies ids replies

/-- The outcomes of a batch, from the text of its replies. -/
def readBatch (text : String) (ids : List UInt64) :
    Except RpcError (List (Except RpcError Json)) :=
  match (Reply.codec Codec.value).list.fromText text with
  | .ok replies => .ok (matchReplies ids replies)
  | .error cause => .error (.serialization cause)

end LedgerWire.Rpc
