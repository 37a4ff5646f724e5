import LedgerWire.Bytes
import LedgerWire.Radix

set_option autoImplicit false

/-! # Base58 text

Keys are shown in positional base 58 over the alphabet without `0`, `O`, `I` and `l`. One leading
`1` stands for each leading zero byte. Text is examined from the left, and the first character that
is no digit is the one reported. -/

namespace LedgerWire.Base58

/-- The 58 digits in increasing order. -/
def alphabet : List Char :=
  "123456789ABCDEFGHJKLMNPQRSTUVWXYZabcdefghijkmnopqrstuvwxyz".toList

/-- The character for a digit below 58. -/
def digitChar (d : Nat) : Char :=
  alphabet.getD d '1'

/-- The value of a character of the alphabet. -/
def digitValue? (c : Char) : Option Nat :=
  alphabet.idxOf? c

/-- Base58 text of arbitrary bytes. -/
def encode (bytes : Bytes) : String :=
  String.ofList ((Radix.convert 256 58 (bytes.map UInt8.toNat)).map digitChar)

/-! ## Reading -/

/-- Why a text is not Base58. The index counts bytes, which up to the first bad character is the
    same as counting characters. -/
inductive TextError where
  | nonAscii (index : Nat)
  | invalidCharacter (c : Char) (index : Nat)
deriving DecidableEq, Repr

/-- The digits of a text whose first character stands at `index`. -/
def readDigits : (index : Nat) → List Char → Except TextError (List Nat)
  | _, [] => .ok []
  | i, c :: cs =>
    match digitValue? c with
    | some d => (readDigits (i + 1) cs).map (d :: ·)
    | none => .error (if c.toNat < 128 then .invalidCharacter c i else .nonAscii i)

/-- The bytes that a Base58 text stands for. -/
def decode (text : String) : Except TextError Bytes :=
  (readDigits 0 text.toList).map fun ds => (Radix.convert 58 256 ds).map UInt8.ofNat

/-! ## Wording -/

/-- An ASCII character between single quotes, with control characters escaped. -/
def quoteChar (c : Char) : String :=
  let body : List Char :=
    match c with
    | '\x00' => ['\\', '0']
    | '\t' => ['\\', 't']
    | '\n' => ['\\', 'n']
    | '\r' => ['\\', 'r']
    | '\'' => ['\\', '\'']
    | '\\' => ['\\', '\\']
    | c =>
      if c.toNat < 32 ∨ c.toNat = 127 then
        ['\\', 'u', '\x7b'] ++ (if c.toNat < 16 then [] else [Radix.hexDigit (c.toNat / 16)])
          ++ [Radix.hexDigit (c.toNat % 16), '\x7d']
      else [c]
  String.ofList (['\''] ++ body ++ ['\''])

/-- What a reader of the text is told. -/
def TextError.message : TextError → String
  | .nonAscii i =>
    "provided string contained non-ascii character starting at byte " ++ toString i
  | .invalidCharacter c i =>
    "provided string contained invalid character " ++ quoteChar c ++ " at byte " ++ toString i

end LedgerWire.Base58
