import LedgerWire.Rpc.Request

set_option autoImplicit false

/-! # The envelopes of a batch

Element number `k` of a batch is the envelope of request number `k`, and it carries the id that the
request asks for, or else `k`. Positions are counted in the same 64 bits as ids, so they only come
up again in a batch of more requests than there are ids. -/

namespace LedgerWire

namespace Json

/-- The keys of an object, in order. -/
def keys : Json → List String
  | .object members => members.map Prod.fst
  | _ => []

/-- The member of an object with this key. -/
def member? (key : String) : Json → Option Json
  | .object members => members.lookup key
  | _ => none

/-- The item of an array at this place. -/
def item? (k : Nat) : Json → Option Json
  | .array items => items[k]?
  | _ => none

end Json

namespace Rpc

/-! ## Envelopes -/

/-- A value is the envelope of a call under this id: it has these keys and no others, in this
    order. -/
structure IsEnvelope (value : Json) (call : Call) (id : UInt64) : Prop where
  keys_eq : value.keys = ["method", "jsonrpc", "id", "params"]
  method_eq : value.member? "method" = some (.string call.method.name)
  jsonrpc_eq : value.member? "jsonrpc" = some (.string "2.0")
  id_eq : value.member? "id" = some (.natural id)
  params_eq : value.member? "params" = some (.array call.params)

theorem Request.envelope_isEnvelope (r : Request) (id : UInt64) :
    IsEnvelope (r.envelope id).toJson r.call id where
  keys_eq := rfl
  method_eq := rfl
  jsonrpc_eq := rfl
  id_eq := rfl
  params_eq := rfl

/-! ## Batches -/

namespace Batch

theorem next_position (position : UInt64) (k : Nat) :
    position + 1 + UInt64.ofNat k = position + UInt64.ofNat (k + 1) := by
  rw [UInt64.ofNat_add, UInt64.add_comm (UInt64.ofNat k), ← UInt64.add_assoc]
  rfl

theorem getElem?_idsFrom (position : UInt64) (rs : List Request) (k : Nat) :
    (idsFrom position rs)[k]? = rs[k]?.map fun r => r.id.getD (position + UInt64.ofNat k) := by
  induction rs generalizing position k with
  | nil => rfl
  | cons r rs ih =>
    cases k with
    | zero => simp [idsFrom]
    | succ k =>
      rw [idsFrom, List.getElem?_cons_succ, List.getElem?_cons_succ, ih, next_position]

/-- A request has the id that it asks for, or else its position. -/
theorem getElem?_ids (rs : List Request) (k : Nat) :
    (ids rs)[k]? = rs[k]?.map fun r => r.id.getD (UInt64.ofNat k) := by
  rw [ids, getElem?_idsFrom]
  simp only [UInt64.zero_add]

theorem length_idsFrom (position : UInt64) (rs : List Request) :
    (idsFrom position rs).length = rs.length := by
  induction rs generalizing position with
  | nil => rfl
  | cons r rs ih => rw [idsFrom, List.length_cons, List.length_cons, ih]

theorem length_ids (rs : List Request) : (ids rs).length = rs.length :=
  length_idsFrom 0 rs

theorem length_envelopes (rs : List Request) : (envelopes rs).length = rs.length := by
  rw [envelopes, List.length_zipWith, length_ids, Nat.min_self]

theorem getElem?_envelopes (rs : List Request) (k : Nat) :
    (envelopes rs)[k]? = rs[k]?.map fun r => r.envelope (r.id.getD (UInt64.ofNat k)) := by
  rw [envelopes, List.getElem?_zipWith, getElem?_ids]
  cases rs[k]? <;> rfl

theorem item?_toJson (rs : List Request) (k : Nat) :
    (toJson rs).item? k =
      rs[k]?.map fun r => (r.envelope (r.id.getD (UInt64.ofNat k))).toJson := by
  rw [toJson, Json.item?, List.getElem?_map, getElem?_envelopes, Option.map_map]
  rfl

end Batch

end Rpc

end LedgerWire
