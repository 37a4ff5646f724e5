import LedgerWire.Rpc.Error
import LedgerWire.Rpc.Terms

set_option autoImplicit false

/-! # The bank of a simulation

A simulated bundle runs against a bank, and a bank is named in one of three shapes: the text `tip`,
an object with a slot, or an object with a commitment inside another one. The shape alone says which
of them is meant. -/

namespace LedgerWire.Rpc

open Json (Codec ReadError Tree)

/-- The bank that a bundle is simulated against. -/
inductive SimulationBank where
  /-- The bank at the end of the node's fork. -/
  | tip
  /-- The bank of a slot. -/
  | slot (slot : UInt64)
  /-- The latest bank of a commitment level. -/
  | commitment (level : Commitment)
deriving DecidableEq, Repr

namespace SimulationBank

/-- The shape a bank is sent as. -/
def toJson : SimulationBank → Json
  | tip => .string "tip"
  | slot n => .object [("slot", .natural n)]
  | commitment level =>
    .object [("commitment", .object [("commitment", Commitment.codec.encode level)])]

/-- The bank that a shape stands for, if any. The innermost commitment may have any form that a
    commitment is read from. -/
def ofJson? : Json → Option SimulationBank
  | .string "tip" => some tip
  | .object [("slot", .number (.natural n))] => some (slot n)
  | .object [("commitment", .object [("commitment", level)])] =>
    match Commitment.codec.fromJson level with
    | .ok level => some (commitment level)
    | .error _ => none
  | _ => none

/-- Which field refuses a value that is no bank. -/
def fieldName : String := "simulationBank"

/-- The bank that a shape stands for; an error shows any other shape. -/
def ofJson (value : Json) : Except RpcError SimulationBank :=
  match ofJson? value with
  | some bank => .ok bank
  | none => .error (.invalidUnionVariant fieldName value)

/-- A bank as its shape. -/
def codec : Codec SimulationBank where
  encode := toJson
  decode t :=
    match t.toJson? with
    | none => .error .malformed
    | some value =>
      match ofJson? value with
      | some bank => .ok bank
      | none => .error (.badChoice fieldName value)

/-- The long form that names the case. -/
def describe : SimulationBank → String
  | tip => "Tip"
  | slot n => "Slot(" ++ toString n.toNat ++ ")"
  | commitment .processed => "Commitment(Processed)"
  | commitment .confirmed => "Commitment(Confirmed)"
  | commitment .finalized => "Commitment(Finalized)"

end SimulationBank

end LedgerWire.Rpc
