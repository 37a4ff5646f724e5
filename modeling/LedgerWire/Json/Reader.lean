import LedgerWire.Json.Numeral
import LedgerWire.Json.Tree

set_option autoImplicit false

/-! # Reading JSON text

The grammar is strict: blanks are space, tab, line feed and carriage return, strings hold no raw
control characters, and nothing may follow a last comma. `readTree` turns the front of a text into a
`Tree` and returns what follows it; after a fault nothing follows.

Containers may be nested 127 levels deep. What lies deeper is read for its grammar only. -/

namespace LedgerWire.Json

/-- The characters that may stand between any two tokens. -/
def isBlank (c : Char) : Bool :=
  c = ' ' ∨ c = '\t' ∨ c = '\n' ∨ c = '\r'

/-- A text without the blanks in front. -/
def skipBlanks (cs : List Char) : List Char :=
  cs.dropWhile isBlank

/-! ## Strings

The characters of a string are read in two steps: first the escapes are recognised, with a
hexadecimal escape giving one 16-bit unit, and then the units are joined, two surrogates making one
character. Only the first step is a matter of grammar. -/

/-- A character, or a 16-bit unit that was written in hexadecimal. -/
inductive Piece where
  | char (c : Char)
  | unit (n : Nat)

/-- The value of a hexadecimal digit. -/
def hexValue? (c : Char) : Option Nat :=
  if '0' ≤ c ∧ c ≤ '9' then some (c.toNat - 48)
  else if 'a' ≤ c ∧ c ≤ 'f' then some (c.toNat - 87)
  else if 'A' ≤ c ∧ c ≤ 'F' then some (c.toNat - 55)
  else none

/-- The 16-bit unit of four hexadecimal digits. -/
def hexUnit? (a b c d : Char) : Option Nat := do
  return (← hexValue? a) * 4096 + (← hexValue? b) * 256 + (← hexValue? c) * 16 + (← hexValue? d)

/-- The character behind a backslash and a letter or sign. -/
def unescape? (c : Char) : Option Char :=
  match c with
  | '"' => some '"'
  | '\\' => some '\\'
  | '/' => some '/'
  | 'b' => some '\x08'
  | 'f' => some '\x0c'
  | 'n' => some '\n'
  | 'r' => some '\r'
  | 't' => some '\t'
  | _ => none

/-- The pieces of a string up to its closing quote, and what follows the quote. -/
def readPieces? : List Char → Option (List Piece × List Char)
  | [] => none
  | '"' :: cs => some ([], cs)
  | '\\' :: 'u' :: a :: b :: c :: d :: cs =>
    match hexUnit? a b c d, readPieces? cs with
    | some n, some (ps, rest) => some (.unit n :: ps, rest)
    | _, _ => none
  | '\\' :: e :: cs =>
    match unescape? e, readPieces? cs with
    | some c, some (ps, rest) => some (.char c :: ps, rest)
    | _, _ => none
  | c :: cs =>
    if c.toNat < 32 then none
    else
      match readPieces? cs with
      | some (ps, rest) => some (.char c :: ps, rest)
      | none => none

/-- Joins pieces into characters, unless half of a surrogate pair is without the other half. -/
def joinPieces? : List Piece → Option (List Char)
  | [] => some []
  | .char c :: ps => (joinPieces? ps).map (c :: ·)
  | .unit n :: ps =>
    if n < 0xD800 ∨ 0xE000 ≤ n then (joinPieces? ps).map (Char.ofNat n :: ·)
    else
      match ps with
      | .unit m :: ps =>
        if n < 0xDC00 ∧ 0xDC00 ≤ m ∧ m < 0xE000 then
          (joinPieces? ps).map (Char.ofNat (0x10000 + (n - 0xD800) * 0x400 + (m - 0xDC00)) :: ·)
        else none
      | _ => none

/-- The string behind an opening quote, missing if nothing can hold it, and what follows it. -/
def readString? (cs : List Char) : Option (Option String × List Char) :=
  (readPieces? cs).map fun (ps, rest) => ((joinPieces? ps).map String.ofList, rest)

/-! ## Values -/

/-- How many containers may lie inside each other. -/
def maxDepth : Nat := 127

/-- A container, taken as it is or, where it lies too deep, reduced to whether it is grammatical. -/
def container (depth : Nat) (t : Tree) : Tree :=
  match depth with
  | 0 => if t.isGrammatical then .unfit else .broken
  | _ + 1 => t

/-- The number in front of a text. -/
def readNumber (cs : List Char) : Tree × List Char :=
  match Numeral.read? cs with
  | some (numeral, rest) =>
    match numeral.value? with
    | some n => (.number n, rest)
    | none => (.unfit, rest)
  | none => (.broken, [])

mutual

/-- The value in front of a text; `depth` is how many more containers may be opened, and `fuel`
    bounds the steps. -/
def readTree : (fuel depth : Nat) → List Char → Tree × List Char
  | 0, _, _ => (.broken, [])
  | fuel + 1, depth, cs =>
    match skipBlanks cs with
    | 'n' :: 'u' :: 'l' :: 'l' :: rest => (.null, rest)
    | 't' :: 'r' :: 'u' :: 'e' :: rest => (.bool true, rest)
    | 'f' :: 'a' :: 'l' :: 's' :: 'e' :: rest => (.bool false, rest)
    | '"' :: rest =>
      match readString? rest with
      | some (some s, rest) => (.string s, rest)
      | some (none, rest) => (.unfit, rest)
      | none => (.broken, [])
    | '[' :: rest =>
      let (items, closed, rest) :=
        match skipBlanks rest with
        | ']' :: rest => ([], true, rest)
        | rest => readItems fuel (depth - 1) rest
      (container depth (.array items closed), rest)
    | '\x7b' :: rest =>
      let (members, closed, rest) :=
        match skipBlanks rest with
        | '\x7d' :: rest => ([], true, rest)
        | rest => readMembers fuel (depth - 1) rest
      (container depth (.object members closed false), rest)
    | cs => readNumber cs

/-- One or more items up to the closing bracket, and whether it was found. -/
def readItems : (fuel depth : Nat) → List Char → List Tree × Bool × List Char
  | 0, _, _ => ([], false, [])
  | fuel + 1, depth, cs =>
    let (t, rest) := readTree fuel depth cs
    match skipBlanks rest with
    | ']' :: rest => ([t], true, rest)
    | ',' :: rest =>
      let (ts, closed, rest) := readItems fuel depth rest
      (t :: ts, closed, rest)
    | _ => ([t], false, [])

/-- One or more members up to the closing brace, and whether it was found. -/
def readMembers : (fuel depth : Nat) → List Char → List (Option String × Tree) × Bool × List Char
  | 0, _, _ => ([], false, [])
  | fuel + 1, depth, cs =>
    match skipBlanks cs with
    | '"' :: rest =>
      match readString? rest with
      | none => ([], false, [])
      | some (key, rest) =>
        match skipBlanks rest with
        | ':' :: rest =>
          let (t, rest) := readTree fuel depth rest
          match skipBlanks rest with
          | '\x7d' :: rest => ([(key, t)], true, rest)
          | ',' :: rest =>
            let (ms, closed, rest) := readMembers fuel depth rest
            ((key, t) :: ms, closed, rest)
          | _ => ([(key, t)], false, [])
        | _ => ([], false, [])
    | _ => ([], false, [])

end

/-- The tree of a whole text, and whether nothing but blanks follows it. Every step but the first
    uses up a character of its own or follows one that did. -/
def readText (text : String) : Tree × Bool :=
  let cs := text.toList
  let (t, rest) := readTree (2 * cs.length + 2) maxDepth cs
  (t, rest.all isBlank)

end LedgerWire.Json
