import LedgerWire.Decimal.Notation
import LedgerWire.Json.Basic

set_option autoImplicit false

/-! # Compact JSON text

Values are written without any space. Strings escape the quote, the backslash and the control
characters below the space, the common ones by a letter and the others by four hexadecimal digits;
every other character stands for itself. -/

namespace LedgerWire.Json

/-! ## Strings -/

/-- How one character is written inside a string. -/
def escapeChar (c : Char) : List Char :=
  match c with
  | '"' => ['\\', '"']
  | '\\' => ['\\', '\\']
  | '\x08' => ['\\', 'b']
  | '\x0c' => ['\\', 'f']
  | '\n' => ['\\', 'n']
  | '\r' => ['\\', 'r']
  | '\t' => ['\\', 't']
  | c =>
    if c.toNat < 32 then
      ['\\', 'u', '0', '0', Radix.hexDigit (c.toNat / 16), Radix.hexDigit (c.toNat % 16)]
    else [c]

/-- A string between its quotes. -/
def stringChars (s : String) : List Char :=
  '"' :: s.toList.flatMap escapeChar ++ ['"']

/-! ## Numbers -/

/-- Doubles are written positionally from 10^(−5) up to 10^16. -/
def doubleLayout : Decimal.Layout := ⟨16, 4⟩

/-- A number in decimal. -/
def Number.chars : Number → List Char
  | .natural n => Decimal.naturalChars n.toNat
  | .negative n => '-' :: Decimal.naturalChars (n.val + 1)
  | .double x => Decimal.doubleChars doubleLayout x

/-! ## Values -/

mutual

/-- The text of a value, as characters. -/
def chars : Json → List Char
  | .null => "null".toList
  | .bool true => "true".toList
  | .bool false => "false".toList
  | .number n => n.chars
  | .string s => stringChars s
  | .array items => '[' :: itemChars items ++ [']']
  | .object members => '\x7b' :: memberChars members ++ ['\x7d']

/-- Values with commas between them. -/
def itemChars : List Json → List Char
  | [] => []
  | [v] => v.chars
  | v :: w :: rest => v.chars ++ ',' :: itemChars (w :: rest)

/-- Members with commas between them. -/
def memberChars : List (String × Json) → List Char
  | [] => []
  | [(k, v)] => stringChars k ++ ':' :: v.chars
  | (k, v) :: m :: rest => stringChars k ++ ':' :: v.chars ++ ',' :: memberChars (m :: rest)

end

/-- The text of a value. -/
def text (value : Json) : String :=
  String.ofList value.chars

end LedgerWire.Json
