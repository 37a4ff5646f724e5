import LedgerWire.Double

set_option autoImplicit false

/-! # JSON values

A JSON value keeps the members of an object in the order in which their keys first came up. A number
is an integer if it was written as one and fits into 64 bits with or without a sign, and a double
otherwise; the three cases of `Json.Number` do not overlap, so each number has one form. -/

namespace LedgerWire

/-- A JSON number. -/
inductive Json.Number where
  /-- An integer that is not negative. -/
  | natural (n : UInt64)
  /-- The integer −(n + 1). -/
  | negative (n : Fin (1 <<< 63))
  /-- Any other number. -/
  | double (x : Double)
deriving DecidableEq

/-- A JSON value. -/
inductive Json where
  | null
  | bool (b : Bool)
  | number (n : Json.Number)
  | string (s : String)
  | array (items : List Json)
  | object (members : List (String × Json))

namespace Json

instance : Inhabited Json := ⟨null⟩

/-- An integer that is not negative, as a value. -/
def natural (n : UInt64) : Json :=
  number (.natural n)

/-- A signed integer, as a number. -/
def Number.ofInt64 (n : Int64) : Number :=
  if h : 0 ≤ n.toInt then .natural (UInt64.ofNat n.toInt.toNat)
  else .negative ⟨(-n.toInt - 1).toNat, by have := n.le_toInt; omega⟩

/-- Gives `key` the value `value`: in its place if the object has the key, at the end if not. -/
def insert (key : String) (value : Json) : List (String × Json) → List (String × Json)
  | [] => [(key, value)]
  | (k, v) :: rest => if k = key then (k, value) :: rest else (k, v) :: insert key value rest

theorem insert_of_forall_ne {key : String} {value : Json} {members : List (String × Json)}
    (h : ∀ m ∈ members, m.1 ≠ key) : insert key value members = members ++ [(key, value)] := by
  induction members with
  | nil => rfl
  | cons m rest ih =>
    obtain ⟨k, v⟩ := m
    have hk : k ≠ key := h (k, v) List.mem_cons_self
    rw [insert, if_neg hk, ih fun m hm => h m (List.mem_cons_of_mem _ hm), List.cons_append]

end Json

end LedgerWire
