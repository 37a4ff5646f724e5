import LedgerWire.Instruction
import LedgerWire.Json.Record

set_option autoImplicit false

/-! # Instructions in JSON

An instruction is an object with its program, its accounts and the bytes of its data as numbers. -/

namespace LedgerWire

open Json (Codec Record)

/-- An account and its flags. -/
def AccountMeta.record : Record AccountMeta where
  types := _
  fields :=
    .cons (.required "pubkey" Codec.address) <|
    .cons (.required "isSigner" Codec.bool) <|
    .cons (.required "isWritable" Codec.bool) .nil
  toRow a := (a.address, a.isSigner, a.isWritable, ())
  ofRow | (address, isSigner, isWritable, ()) => ⟨address, isSigner, isWritable⟩

/-- An account and its flags. -/
def AccountMeta.codec : Codec AccountMeta := AccountMeta.record.codec

/-- An instruction. -/
def Instruction.record : Record Instruction where
  types := _
  fields :=
    .cons (.required "programId" Codec.address) <|
    .cons (.required "accounts" AccountMeta.codec.list) <|
    .cons (.required "data" Codec.u8.list) .nil
  toRow i := (i.program, i.accounts, i.data, ())
  ofRow | (program, accounts, data, ()) => ⟨program, accounts, data⟩

/-- An instruction. -/
def Instruction.codec : Codec Instruction := Instruction.record.codec

end LedgerWire
