import LedgerWire.Base64
import LedgerWire.Json.Record

set_option autoImplicit false

/-! # Filters of an account scan

A scan can be narrowed to accounts with data of a given size, or with given bytes at a given place.
The bytes to compare with travel as text, next to the name of the encoding. -/

namespace LedgerWire.Rpc

open Json (Codec Names Record)

/-! ## Byte patterns -/

/-- How the bytes of a pattern are written. -/
inductive PatternEncoding where
  | base58
  | base64
deriving DecidableEq, Repr

namespace PatternEncoding

/-- What a pattern means that does not name its encoding. -/
instance : Inhabited PatternEncoding := ⟨base58⟩

/-- The names of the encodings. -/
def names : Names PatternEncoding where
  all := [base58, base64]
  name
    | base58 => "base58"
    | base64 => "base64"

/-- An encoding as its name. -/
def codec : Codec PatternEncoding := names.codec

end PatternEncoding

/-- Bytes that have to stand at an offset of the data. -/
structure BytePattern where
  offset : UInt64
  text : String
  encoding : PatternEncoding
deriving DecidableEq

namespace BytePattern

/-- A pattern carried as Base58. -/
def ofBytes (offset : UInt64) (bytes : Bytes) : BytePattern :=
  ⟨offset, Base58.encode bytes, .base58⟩

/-- A pattern that is Base58 text already; the text is not checked. -/
def ofBase58 (offset : UInt64) (text : String) : BytePattern :=
  ⟨offset, text, .base58⟩

/-- A pattern carried as Base64. -/
def ofBytesBase64 (offset : UInt64) (bytes : Bytes) : BytePattern :=
  ⟨offset, Base64.encode bytes, .base64⟩

/-- The fields of a pattern. -/
def record : Record BytePattern where
  types := _
  fields :=
    .cons (.required "offset" Codec.u64) <|
    .cons (.required "bytes" Codec.string) <|
    .cons (.defaulted "encoding" PatternEncoding.codec default) .nil
  toRow p := (p.offset, p.text, p.encoding, ())
  ofRow | (offset, text, encoding, ()) => ⟨offset, text, encoding⟩

/-- A pattern as an object. -/
def codec : Codec BytePattern := record.codec

end BytePattern

/-! ## Filters -/

/-- One condition of a scan. -/
inductive ScanFilter where
  /-- The data has this size. -/
  | dataSize (size : UInt64)
  /-- The data holds these bytes. -/
  | pattern (pattern : BytePattern)
deriving DecidableEq

namespace ScanFilter

/-- A condition as an object with a single key. -/
def codec : Codec ScanFilter :=
  Codec.variants
    (fun
      | dataSize size => ("dataSize", Codec.u64.encode size)
      | pattern p => ("memcmp", BytePattern.codec.encode p))
    [("dataSize", fun t => (Codec.u64.decode t).map dataSize),
     ("memcmp", fun t => (BytePattern.codec.decode t).map pattern)]

end ScanFilter

end LedgerWire.Rpc
