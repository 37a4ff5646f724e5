import LedgerWire.Json.Record

set_option autoImplicit false

/-! # What can go wrong in a remote call

A call fails before it is sent, because one of its parts makes no sense, or when its reply is read:
the reply may be no reply, report an error of the remote side, or not be there at all. -/

namespace LedgerWire.Rpc

open Json (Codec ReadError Record)

/-- An error that the remote side reports. -/
structure RemoteError where
  code : Int64
  message : String
  data : Option Json

namespace RemoteError

/-- The fields of an error. -/
def record : Record RemoteError where
  types := _
  fields :=
    .cons (.required "code" Codec.i64) <|
    .cons (.required "message" Codec.string) <|
    .cons (.optional "data" Codec.value) .nil
  toRow e := (e.code, e.message, e.data, ())
  ofRow | (code, message, data, ()) => ⟨code, message, data⟩

/-- An error as an object. -/
def codec : Codec RemoteError := record.codec

end RemoteError

/-- Why a call has no result. -/
inductive RpcError where
  /-- A value is none of the shapes that a field offers. -/
  | invalidUnionVariant (field : String) (value : Json)
  /-- A text is not JSON, or not of the right form. -/
  | serialization (cause : ReadError)
  /-- The remote side answered with an error. -/
  | remote (error : RemoteError)
  /-- A reply holds neither a result nor an error. -/
  | missingResult
  /-- No reply is left for a request. -/
  | missingResponse (id : UInt64)
  /-- A part of the request is no key. -/
  | codec (cause : CodecError)

/-- What a reader of the error is told, where there is a wording for it. -/
def RpcError.message? : RpcError → Option String
  | .invalidUnionVariant field value => (ReadError.badChoice field value).message?
  | .serialization cause => cause.message?
  | .remote e =>
    some ("RPC error " ++ String.ofList (Decimal.integerChars e.code.toInt) ++ ": " ++ e.message)
  | .missingResult => some "Response carries neither a result nor an error"
  | .missingResponse id => some ("No response for request id " ++ toString id.toNat)
  | .codec cause => some ("Codec error: " ++ cause.message)

end LedgerWire.Rpc
