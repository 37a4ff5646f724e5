import LedgerWire.Json.Record

set_option autoImplicit false

/-! # Terms shared by many requests

How final a state has to be, how data is written in an answer, how much of a transaction is asked
for, and which part of an account's data. -/

namespace LedgerWire.Rpc

open Json (Codec Names Record)

/-! ## Commitment -/

/-- How far a block has come. -/
inductive Commitment where
  /-- The node has processed it. -/
  | processed
  /-- Most of the stake has voted for it. -/
  | confirmed
  /-- It cannot be undone. -/
  | finalized
deriving DecidableEq, Repr

namespace Commitment

/-- What a request means that does not name a commitment. -/
instance : Inhabited Commitment := ⟨finalized⟩

/-- The names of the levels. -/
def names : Names Commitment where
  all := [processed, confirmed, finalized]
  name
    | processed => "processed"
    | confirmed => "confirmed"
    | finalized => "finalized"

/-- A level as its name. -/
def codec : Codec Commitment := names.codec

end Commitment

/-! ## Encodings -/

/-- How account data is written. -/
inductive AccountEncoding where
  /-- Base58 in the form that came first. -/
  | binary
  | base58
  | base64
  /-- As an object, where the program is known. -/
  | jsonParsed
  /-- Compressed, then Base64. -/
  | base64Zstd
deriving DecidableEq, Repr

namespace AccountEncoding

/-- The names of the encodings. -/
def names : Names AccountEncoding where
  all := [binary, base58, base64, jsonParsed, base64Zstd]
  name
    | binary => "binary"
    | base58 => "base58"
    | base64 => "base64"
    | jsonParsed => "jsonParsed"
    | base64Zstd => "base64+zstd"

/-- An encoding as its name. -/
def codec : Codec AccountEncoding := names.codec

end AccountEncoding

/-- How transactions are written. -/
inductive TransactionEncoding where
  /-- Base58 in the form that came first. -/
  | binary
  | base64
  | base58
  /-- As an object. -/
  | json
  /-- As an object with the instructions of known programs spelled out. -/
  | jsonParsed
deriving DecidableEq, Repr

namespace TransactionEncoding

/-- The names of the encodings. -/
def names : Names TransactionEncoding where
  all := [binary, base64, base58, json, jsonParsed]
  name
    | binary => "binary"
    | base64 => "base64"
    | base58 => "base58"
    | json => "json"
    | jsonParsed => "jsonParsed"

/-- An encoding as its name. -/
def codec : Codec TransactionEncoding := names.codec

end TransactionEncoding

/-! ## Detail -/

/-- How much of each transaction is returned. -/
inductive DetailLevel where
  | full
  | signatures
  | none
  | accounts
deriving DecidableEq, Repr

namespace DetailLevel

/-- What a request means that does not name a level of detail. -/
instance : Inhabited DetailLevel := ⟨full⟩

/-- The names of the levels. -/
def names : Names DetailLevel where
  all := [full, signatures, none, accounts]
  name
    | full => "full"
    | signatures => "signatures"
    | none => "none"
    | accounts => "accounts"

/-- A level as its name. -/
def codec : Codec DetailLevel := names.codec

end DetailLevel

/-! ## Slices -/

/-- A part of an account's data. -/
structure DataSlice where
  offset : UInt64
  length : UInt64
deriving DecidableEq

namespace DataSlice

/-- The fields of a slice. -/
def record : Record DataSlice where
  types := _
  fields := .cons (.required "offset" Codec.u64) <| .cons (.required "length" Codec.u64) .nil
  toRow s := (s.offset, s.length, ())
  ofRow | (offset, length, ()) => ⟨offset, length⟩

/-- A slice as an object. -/
def codec : Codec DataSlice := record.codec

end DataSlice

end LedgerWire.Rpc
