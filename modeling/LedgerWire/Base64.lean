import LedgerWire.Bytes

set_option autoImplicit false

/-! # Base64 text

The standard alphabet with padding: three bytes become four characters, and a last group of one or
two bytes is filled up with `=` to four. -/

namespace LedgerWire.Base64

/-- The 64 digits in increasing order. -/
def alphabet : List Char :=
  "ABCDEFGHIJKLMNOPQRSTUVWXYZabcdefghijklmnopqrstuvwxyz0123456789+/".toList

/-- The character for a digit below 64. -/
def digitChar (d : Nat) : Char :=
  alphabet.getD d 'A'

/-- The characters of a byte string, group by group. -/
def encodeChars : Bytes → List Char
  | a :: b :: c :: rest =>
    let n := a.toNat * 65536 + b.toNat * 256 + c.toNat
    digitChar (n / 262144) :: digitChar (n / 4096 % 64) :: digitChar (n / 64 % 64)
      :: digitChar (n % 64) :: encodeChars rest
  | [a, b] =>
    let n := a.toNat * 256 + b.toNat
    [digitChar (n / 1024), digitChar (n / 16 % 64), digitChar (n % 16 * 4), '=']
  | [a] =>
    [digitChar (a.toNat / 4), digitChar (a.toNat % 4 * 16), '=', '=']
  | [] => []

/-- Base64 text of arbitrary bytes. -/
def encode (bytes : Bytes) : String :=
  String.ofList (encodeChars bytes)

end LedgerWire.Base64
