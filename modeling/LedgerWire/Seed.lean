import LedgerWire.Error

set_option autoImplicit false

/-! # Seeds

A seed is a text that fits into 32 bytes of UTF-8. The limit is on the encoded size, not on the
number of characters, and it is part of the type. -/

namespace LedgerWire

/-- The largest encoded size of one seed. -/
def maxSeedSize : Nat := 32

/-- Refuses a size above the limit for one seed. -/
def checkSeedSize (size : Nat) : Except CodecError Unit :=
  if size > maxSeedSize then .error (.seedTooLong size) else .ok ()

/-- A text of at most 32 encoded bytes. -/
structure Seed where
  text : String
  size_le : text.utf8ByteSize ≤ maxSeedSize
deriving DecidableEq

namespace Seed

/-- The empty seed. -/
def empty : Seed := ⟨"", by decide⟩

instance : Inhabited Seed := ⟨empty⟩

/-- The seed with this text, if it is short enough. -/
def ofText (text : String) : Except CodecError Seed :=
  if h : text.utf8ByteSize ≤ maxSeedSize then .ok ⟨text, h⟩
  else .error (.seedTooLong text.utf8ByteSize)

/-- The encoded text. -/
def bytes (seed : Seed) : Bytes :=
  Bytes.ofText seed.text

@[simp] theorem ofText_text (seed : Seed) : ofText seed.text = .ok seed :=
  dif_pos seed.size_le

end Seed

end LedgerWire
