import LedgerWire.Error
import LedgerWire.Json.Printer
import LedgerWire.Json.Reader

set_option autoImplicit false

/-! # Types in JSON

A `Codec` says how a type is written as a JSON value and how it is read from a `Tree`. Reading goes
through the tree in the order of the text and stops at the first fault, so of two faults the one
that was written first is reported. A fault of form is only told apart from the two refusals that
come with a wording of their own: a text that is no key, and a value that is none of the shapes a
field offers.

A codec reads a JSON value as a tree that is known as a whole (`Codec.fromJson`). -/

namespace LedgerWire.Json

/-- Why a text could not be read as what it should be. -/
inductive ReadError where
  /-- The text is not JSON, or not of the right form. -/
  | malformed
  /-- A string that should be a key is none. -/
  | badKey (cause : KeyError)
  /-- A value is none of the shapes that a field offers. -/
  | badChoice (field : String) (value : Json)

/-- The wording of a refusal; faults of form have none. -/
def ReadError.message? : ReadError → Option String
  | .malformed => none
  | .badKey cause => some (CodecError.invalidAddress cause).message
  | .badChoice field value => some ("Invalid value for " ++ field ++ ": " ++ value.text)

/-- How a type is written as JSON, and read from it. -/
structure Codec (α : Type) where
  encode : α → Json
  decode : Tree → Except ReadError α

namespace Codec

variable {α : Type}

/-- Reads a whole text. What follows the value is looked at last. -/
def fromText (c : Codec α) (text : String) : Except ReadError α := do
  let (tree, atEnd) := readText text
  let a ← c.decode tree
  if atEnd then return a else throw .malformed

/-- Reads a JSON value. -/
def fromJson (c : Codec α) (value : Json) : Except ReadError α :=
  c.decode (Tree.ofJson true value)

/-- Writes compact text. -/
def toText (c : Codec α) (a : α) : String :=
  (c.encode a).text

/-! ## Simple types -/

/-- Any value. -/
def value : Codec Json where
  encode v := v
  decode t :=
    match t.toJson? with
    | some v => .ok v
    | none => .error .malformed

/-- A truth value. -/
def bool : Codec Bool where
  encode := .bool
  decode
    | .bool b => .ok b
    | _ => .error .malformed

/-- A string. -/
def string : Codec String where
  encode := .string
  decode
    | .string s => .ok s
    | _ => .error .malformed

/-- An integer of 64 bits without a sign. -/
def u64 : Codec UInt64 where
  encode := .natural
  decode
    | .number (.natural n) => .ok n
    | _ => .error .malformed

/-- An integer of 8 bits without a sign. -/
def u8 : Codec UInt8 where
  encode n := .natural n.toUInt64
  decode
    | .number (.natural n) => if n < 256 then .ok n.toUInt8 else .error .malformed
    | _ => .error .malformed

/-- An integer of 64 bits with a sign. -/
def i64 : Codec Int64 where
  encode n := .number (.ofInt64 n)
  decode
    | .number (.natural n) => if n.toNat < 1 <<< 63 then .ok (.ofNat n.toNat) else .error .malformed
    | .number (.negative n) => .ok (.ofInt (-(n.val + 1 : Nat)))
    | _ => .error .malformed

/-- A key as its text. -/
def key {size : Nat} (ofText : String → Except KeyError (Key size)) : Codec (Key size) where
  encode k := .string k.toText
  decode
    | .string s =>
      match ofText s with
      | .ok k => .ok k
      | .error cause => .error (.badKey cause)
    | _ => .error .malformed

/-- An address as its text. -/
def address : Codec Address := key Address.ofText

/-- A signature as its text. -/
def signature : Codec Signature := key Signature.ofText

/-! ## Composed types -/

/-- A list as an array. -/
def list (c : Codec α) : Codec (List α) where
  encode as := .array (as.map c.encode)
  decode
    | .array items closed => do
      let as ← items.mapM c.decode
      if closed then return as else throw .malformed
    | _ => .error .malformed

/-- An optional value, with null for none. -/
def nullable (c : Codec α) : Codec (Option α) where
  encode
    | none => .null
    | some a => c.encode a
  decode
    | .null => .ok none
    | t => (c.decode t).map some

/-- One of several named forms, each with contents of its own, as an object whose single key is the
    name. Other keys are a fault behind the contents, and in a value that is known one in front of
    them. -/
def variants (encode : α → String × Json)
    (readers : List (String × (Tree → Except ReadError α))) : Codec α where
  encode a := .object [encode a]
  decode
    | .object ((some name, t) :: others) closed known =>
      match readers.lookup name with
      | some read => do
        if known && !others.isEmpty then throw .malformed
        let a ← read t
        if others.isEmpty && closed then return a else throw .malformed
      | none => .error .malformed
    | _ => .error .malformed

end Codec

/-! ## Names -/

/-- A type whose values are told apart by their names. -/
structure Names (α : Type) where
  all : List α
  name : α → String

namespace Names

variable {α : Type}

/-- The value with this name. -/
def find (names : Names α) (s : String) : Except ReadError α :=
  match names.all.find? fun a => names.name a = s with
  | some a => .ok a
  | none => .error .malformed

/-- A value as its name. It may also be read as an object whose single key is the name, with the
    contents null. -/
def codec (names : Names α) : Codec α where
  encode a := .string (names.name a)
  decode
    | .string s => names.find s
    | .object [(some s, .null)] true _ => names.find s
    | _ => .error .malformed

/-- As `codec`, but read with empty contents as well. Members that were set aside and read later
    are read so. -/
def laxCodec (names : Names α) : Codec α where
  encode := names.codec.encode
  decode
    | .object [(some s, .object [] true _)] true _ => names.find s
    | t => names.codec.decode t

end Names

end LedgerWire.Json
