import LedgerWire.Rpc.Call

set_option autoImplicit false

/-! # Requests

A request is a call, perhaps with an id of its own. It is sent as an envelope with the method, the
protocol version, an id and the arguments, in this order. Several requests can be sent as one batch:
an array of envelopes, in which a request without an id is given its position.

An envelope can be rendered as a JSON value or directly as text. -/

namespace LedgerWire.Rpc

/-- The version that every envelope names. -/
def protocolVersion : String := "2.0"

/-! ## Envelopes -/

/-- What is sent for one call. -/
structure Envelope where
  method : Method
  id : UInt64
  params : List Json

namespace Envelope

/-- An envelope as a value. -/
def toJson (e : Envelope) : Json :=
  .object
    [("method", .string e.method.name), ("jsonrpc", .string protocolVersion),
     ("id", .natural e.id), ("params", .array e.params)]

/-- A member of an object, as text. -/
def memberText (key value : String) : String :=
  "\"" ++ key ++ "\":" ++ value

/-- An envelope as text. The names of methods and keys need no escapes. -/
def toText (e : Envelope) : String :=
  "\x7b" ++ ",".intercalate
    [memberText "method" ("\"" ++ e.method.name ++ "\""),
     memberText "jsonrpc" ("\"" ++ protocolVersion ++ "\""),
     memberText "id" (toString e.id.toNat),
     memberText "params" ("[" ++ ",".intercalate (e.params.map Json.text) ++ "]")]
    ++ "\x7d"

end Envelope

/-! ## Single requests -/

/-- A call with the id that it asks for. -/
structure Request where
  call : Call
  id : Option UInt64
deriving DecidableEq

namespace Request

/-- The envelope of a request under a given id. -/
def envelope (r : Request) (id : UInt64) : Envelope :=
  ⟨r.call.method, id, r.call.params⟩

/-- The envelope of a request that is sent alone: without an id of its own it has the id zero. -/
def single (r : Request) : Envelope :=
  r.envelope (r.id.getD 0)

/-- A request as a value. -/
def toJson (r : Request) : Json := r.single.toJson

/-- A request as text. -/
def toText (r : Request) : String := r.single.toText

end Request

/-! ## Batches -/

namespace Batch

/-- The ids of requests of which the first stands at `position`. -/
def idsFrom : (position : UInt64) → List Request → List UInt64
  | _, [] => []
  | position, r :: rs => r.id.getD position :: idsFrom (position + 1) rs

/-- The id of each request: its own one, or else its position. -/
def ids (requests : List Request) : List UInt64 :=
  idsFrom 0 requests

/-- The envelopes of a batch, in order. -/
def envelopes (requests : List Request) : List Envelope :=
  List.zipWith Request.envelope requests (ids requests)

/-- A batch as a value. -/
def toJson (requests : List Request) : Json :=
  .array ((envelopes requests).map Envelope.toJson)

/-- A batch as text; even a single request stands in an array. -/
def toText (requests : List Request) : String :=
  "[" ++ ",".intercalate ((envelopes requests).map Envelope.toText) ++ "]"

end Batch

end LedgerWire.Rpc
