import LedgerWire.Json.Codec

set_option autoImplicit false

/-! # Records in JSON

A record is written as an object with one member for each field, in the order of the fields; a field
may leave its member out. It is read from an object with its members in any order, or from an array
of its fields in order. A key that is no field is skipped, and a key that comes up twice is refused
where it comes up again.

The types of the fields differ, so a record is taken apart into a `Row`, a tuple of their types. One
description of the fields serves for writing and for both ways of reading. -/

namespace LedgerWire.Json

/-- One value for each type. -/
def Row : List Type → Type
  | [] => Unit
  | α :: αs => α × Row αs

/-- At most one value for each type. -/
def Slots : List Type → Type
  | [] => Unit
  | α :: αs => Option α × Slots αs

/-! ## Fields -/

/-- How one field of a record is written and read. -/
structure Field (α : Type) where
  key : String
  codec : Codec α
  /-- The value of the field in an object without its key, if it may be absent. -/
  absent : Option α
  /-- The value of the field behind the end of an array, if it may be absent. -/
  beyond : Option α
  /-- Whether a value is left out when it is written. -/
  isOmitted : α → Bool

namespace Field

variable {α : Type}

/-- A field that is always there. -/
def required (key : String) (c : Codec α) : Field α :=
  ⟨key, c, none, none, fun _ => false⟩

/-- A field that is written only if it has a value. -/
def optional (key : String) (c : Codec α) : Field (Option α) :=
  ⟨key, c.nullable, some none, some none, Option.isNone⟩

/-- A field that is always written, with null for no value. An object may do without it, an array
    may not. -/
def nullable (key : String) (c : Codec α) : Field (Option α) :=
  ⟨key, c.nullable, some none, none, fun _ => false⟩

/-- A field that is always written and has a value when it is missing. -/
def defaulted (key : String) (c : Codec α) (value : α) : Field α :=
  ⟨key, c, some value, some value, fun _ => false⟩

/-- A field that tells a null from its absence. -/
def present (key : String) (c : Codec α) : Field (Option α) where
  key := key
  codec :=
    { encode := c.nullable.encode
      decode := fun t => (c.decode t).map some }
  absent := some none
  beyond := some none
  isOmitted := Option.isNone

/-- The field of a record that is merged into another. Its member is set aside first, so all that is
    in it has to be a value, even where nobody looks at it. -/
def setAside (f : Field α) : Field α :=
  { f with
    codec :=
      { encode := f.codec.encode
        decode := fun t =>
          match t.toJson? with
          | some _ => f.codec.decode t
          | none => .error .malformed } }

end Field

/-- The fields of a record in order. -/
inductive Fields : List Type → Type 1 where
  | nil : Fields []
  | cons {α : Type} {αs : List Type} (field : Field α) (others : Fields αs) : Fields (α :: αs)

namespace Fields

/-- The keys of the fields in order. -/
def keys : {αs : List Type} → Fields αs → List String
  | _, nil => []
  | _, cons f fs => f.key :: fs.keys

/-! ## Writing -/

/-- The members of an object. -/
def write : {αs : List Type} → Fields αs → Row αs → List (String × Json)
  | _, nil, () => []
  | _, cons f fs, (a, as) =>
    if f.isOmitted a then fs.write as else (f.key, f.codec.encode a) :: fs.write as

/-! ## Reading an object -/

/-- No field has a value yet. -/
def empty : {αs : List Type} → Fields αs → Slots αs
  | _, nil => ()
  | _, cons _ fs => (none, fs.empty)

/-- Reads a member into the slot of its key, unless no field has the key. -/
def store? : {αs : List Type} → Fields αs → Slots αs → (key : String) → Tree →
    Option (Except ReadError (Slots αs))
  | _, nil, (), _, _ => none
  | _, cons f fs, (slot, slots), key, t =>
    if f.key = key then
      some (if slot.isSome then .error .malformed
        else (f.codec.decode t).map fun a => (some a, slots))
    else
      (fs.store? slots key t).map fun stored => stored.map fun slots => (slot, slots)

/-- Reads members one after the other. What belongs to no field must pass `skip`. -/
def readMembers {αs : List Type} (fs : Fields αs) (skip : Tree → Bool) :
    Slots αs → List (Option String × Tree) → Except ReadError (Slots αs)
  | slots, [] => .ok slots
  | slots, (some key, t) :: members =>
    match fs.store? slots key t with
    | some (.ok slots) => fs.readMembers skip slots members
    | some (.error e) => .error e
    | none => if skip t then fs.readMembers skip slots members else .error .malformed
  | _, (none, _) :: _ => .error .malformed

/-- Gives the fields without a member their values. -/
def complete : {αs : List Type} → Fields αs → Slots αs → Except ReadError (Row αs)
  | _, nil, () => .ok ()
  | _, cons f fs, (slot, slots) =>
    match slot.or f.absent, fs.complete slots with
    | some a, .ok as => .ok (a, as)
    | _, _ => .error .malformed

/-- Reads an object. -/
def readObject {αs : List Type} (fs : Fields αs) (skip : Tree → Bool)
    (members : List (Option String × Tree)) (closed : Bool) : Except ReadError (Row αs) := do
  let slots ← fs.readMembers skip fs.empty members
  if closed then fs.complete slots else throw .malformed

/-! ## Reading an array -/

/-- Reads the fields in order. -/
def readArray : {αs : List Type} → Fields αs → List Tree → (closed : Bool) →
    Except ReadError (Row αs)
  | _, nil, [], true => .ok ()
  | _, nil, _, _ => .error .malformed
  | _, cons f fs, t :: ts, closed =>
    match f.codec.decode t with
    | .error e => .error e
    | .ok a => (fs.readArray ts closed).map fun as => (a, as)
  | _, cons f fs, [], true =>
    match f.beyond with
    | some a => (fs.readArray [] true).map fun as => (a, as)
    | none => .error .malformed
  | _, cons _ _, [], false => .error .malformed

end Fields

/-! ## Records -/

/-- A structure taken apart into fields. -/
structure Record (σ : Type) where
  types : List Type
  fields : Fields types
  toRow : σ → Row types
  ofRow : Row types → σ

namespace Record

variable {σ : Type}

/-- The members of the object that a record is written as. -/
def members (r : Record σ) (s : σ) : List (String × Json) :=
  r.fields.write (r.toRow s)

/-- A record as an object, read also from an array. -/
def codec (r : Record σ) : Codec σ where
  encode s := .object (r.members s)
  decode
    | .object members closed _ =>
      (r.fields.readObject Tree.isGrammatical members closed).map r.ofRow
    | .array items closed => (r.fields.readArray items closed).map r.ofRow
    | _ => .error .malformed

/-- A record that another record is merged into. It is read from objects only, and whatever belongs
    to no field has to be a value. -/
def mergedCodec (r : Record σ) : Codec σ where
  encode s := .object (r.members s)
  decode
    | .object members closed _ =>
      (r.fields.readObject (fun t => t.toJson?.isSome) members closed).map r.ofRow
    | _ => .error .malformed

end Record

end LedgerWire.Json
