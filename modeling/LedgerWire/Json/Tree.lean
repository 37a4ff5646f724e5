import LedgerWire.Json.Basic

set_option autoImplicit false

/-! # Text read as a tree

Whether a text is acceptable depends on what it is read as: a key that nobody asks for may hold
anything grammatical, while the same words under a known key have to make sense. So text is first
read as a `Tree`, which keeps everything that was written, faults included, in the order in which it
was written. Reading goes on up to the first fault against the grammar, which therefore stands at
the end of the tree.

A value can be taken as a tree as well. It is complete before anyone looks at it, so an object that
has too many members for what it is read as is refused at once; in text the other members are found
only behind the contents of the first one.

Two kinds of faults are kept apart. Where text is `broken` the grammar ends. A value is `unfit` if
it is grammatical but nothing can hold it: a number beyond the largest double, a string with half a
surrogate pair, or a container inside too many others. -/

namespace LedgerWire.Json

/-- A text as it was written, or a value. The flag `closed` of a container says whether it was
    closed properly, and `known` whether it belongs to a value; a key is missing where it is a
    string that nothing can hold. -/
inductive Tree where
  | null
  | bool (b : Bool)
  | number (n : Number)
  | string (s : String)
  | array (items : List Tree) (closed : Bool)
  | object (members : List (Option String × Tree)) (closed known : Bool)
  | unfit
  | broken

namespace Tree

instance : Inhabited Tree := ⟨broken⟩

/-! ## Grammar -/

mutual

/-- Whether the text keeps to the grammar throughout. -/
def isGrammatical : Tree → Bool
  | .array items closed => closed && areGrammatical items
  | .object members closed _ => closed && membersAreGrammatical members
  | .broken => false
  | _ => true

/-- Whether all items keep to the grammar. -/
def areGrammatical : List Tree → Bool
  | [] => true
  | t :: ts => t.isGrammatical && areGrammatical ts

/-- Whether all members keep to the grammar. -/
def membersAreGrammatical : List (Option String × Tree) → Bool
  | [] => true
  | (_, t) :: ms => t.isGrammatical && membersAreGrammatical ms

end

/-! ## Values -/

mutual

/-- The value that a text stands for, if it is free of faults. A key that comes up again replaces
    the value it had. -/
def toJson? : Tree → Option Json
  | .null => some .null
  | .bool b => some (.bool b)
  | .number n => some (.number n)
  | .string s => some (.string s)
  | .array items true => (itemsToJson? items).map .array
  | .object members true _ => (membersToJson? [] members).map .object
  | _ => none

/-- The values of all items. -/
def itemsToJson? : List Tree → Option (List Json)
  | [] => some []
  | t :: ts =>
    match t.toJson?, itemsToJson? ts with
    | some v, some vs => some (v :: vs)
    | _, _ => none

/-- Adds the members of an object to those in front of them. -/
def membersToJson? (before : List (String × Json)) :
    List (Option String × Tree) → Option (List (String × Json))
  | [] => some before
  | (some k, t) :: ms =>
    match t.toJson? with
    | some v => membersToJson? (Json.insert k v before) ms
    | none => none
  | (none, _) :: _ => none

end

mutual

/-- A value as a tree; it is the tree of its text unless it is `known`. -/
def ofJson (known : Bool) : Json → Tree
  | .null => .null
  | .bool b => .bool b
  | .number n => .number n
  | .string s => .string s
  | .array items => .array (ofItems known items) true
  | .object members => .object (ofMembers known members) true known

/-- The items of an array as trees. -/
def ofItems (known : Bool) : List Json → List Tree
  | [] => []
  | v :: vs => ofJson known v :: ofItems known vs

/-- The members of an object as trees. -/
def ofMembers (known : Bool) : List (String × Json) → List (Option String × Tree)
  | [] => []
  | (k, v) :: ms => (some k, ofJson known v) :: ofMembers known ms

end

end Tree

end LedgerWire.Json
