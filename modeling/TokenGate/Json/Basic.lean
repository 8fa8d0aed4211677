import TokenGate.Number.Binary64
import TokenGate.Text.Basic

/-!
# JSON values

A number is an integer or a binary64 number: `1` and `1.0` are different values. The members of an
object have an order, which is the order in which they are written; objects that come out of a
reader have distinct names in increasing order.
-/

/-! ## Values -/

namespace TokenGate

/-- A number of a JSON value. -/
inductive Json.Number
  /-- An integer, between `-2 ^ 63` and `2 ^ 64 - 1` where it comes out of a reader. -/
  | int (value : Int)
  /-- A number with a fraction, an exponent, or too many digits for an integer. -/
  | float (value : TokenGate.Number.Binary64)
  deriving DecidableEq, Repr

/-- A JSON value. -/
inductive Json
  | null
  | bool (value : Bool)
  | number (value : Json.Number)
  | string (value : String)
  | array (items : List Json)
  | object (members : List (String × Json))
  deriving Inhabited

namespace Json

/-- The number of an integer. -/
def int (z : Int) : Json := .number (.int z)

/-- The array of some strings. -/
def strings (ss : List String) : Json := .array (ss.map .string)

/-- The value under a name, if the names of an object hold it. -/
def lookup? (name : String) : List (String × Json) → Option Json
  | [] => none
  | (n, v) :: rest => if n = name then some v else lookup? name rest

/-- The member of an object; other values have none. -/
def get? (name : String) : Json → Option Json
  | .object members => lookup? name members
  | _ => none

/-- The text of a string. -/
def asString? : Json → Option String
  | .string s => some s
  | _ => none

/-- The integers of 64 bits with a sign. -/
def fitsInt64 (z : Int) : Bool := -9223372036854775808 ≤ z && z < 9223372036854775808

/-- The integers of 64 bits without a sign. -/
def fitsUInt64 (z : Int) : Bool := 0 ≤ z && z < 18446744073709551616

/-- The integers of 16 bits without a sign. -/
def fitsUInt16 (z : Int) : Bool := 0 ≤ z && z < 65536

/-- The value of an integer of 64 bits with a sign. -/
def asInt64? : Json → Option Int
  | .number (.int z) => if fitsInt64 z then some z else none
  | _ => none

/-- Puts a member in its place among names in increasing order; an earlier one of the name goes. -/
def insert (name : String) (value : Json) : List (String × Json) → List (String × Json)
  | [] => [(name, value)]
  | (n, v) :: rest =>
    if name = n then (name, value) :: rest
    else if name < n then (name, value) :: (n, v) :: rest
    else (n, v) :: insert name value rest

/-- Members with distinct names in increasing order; of repeated ones the last counts. -/
def sorted (members : List (String × Json)) : List (String × Json) :=
  members.foldl (fun done (n, v) => insert n v done) []

end Json

end TokenGate

/-!
## Printer: the text of a JSON value

The text is compact: no blanks, members in their order. In a string the quote, the backslash and the
control characters are escaped, five of them by a letter and the others by their code point;
everything else stands for itself.
-/

namespace TokenGate.Json

open Text.Hexadecimal (lowerDigit)

/-- A character as it stands in a string. -/
def escape (c : Char) : List Char :=
  if c = '"' then ['\\', '"']
  else if c = '\\' then ['\\', '\\']
  else if c.toNat = 0x08 then ['\\', 'b']
  else if c.toNat = 0x0C then ['\\', 'f']
  else if c.toNat = 0x0A then ['\\', 'n']
  else if c.toNat = 0x0D then ['\\', 'r']
  else if c.toNat = 0x09 then ['\\', 't']
  else if c.toNat < 0x20 then
    ['\\', 'u', '0', '0', lowerDigit (c.toNat / 16), lowerDigit (c.toNat % 16)]
  else [c]

/-- A string between quotes. -/
def quoted (s : String) : List Char := '"' :: s.toList.flatMap escape ++ ['"']

/-- The text of a number. -/
def Number.render : Number → List Char
  | .int z => (toString z).toList
  | .float x => (TokenGate.Number.Shortest.compact x).toList

mutual

/-- The characters of a value. -/
def chars : Json → List Char
  | .null => ['n', 'u', 'l', 'l']
  | .bool true => ['t', 'r', 'u', 'e']
  | .bool false => ['f', 'a', 'l', 's', 'e']
  | .number n => n.render
  | .string s => quoted s
  | .array items => '[' :: itemChars items
  | .object members => '\x7b' :: memberChars members

/-- The characters of the items of an array, and its end. -/
def itemChars : List Json → List Char
  | [] => [']']
  | [v] => chars v ++ [']']
  | v :: rest => chars v ++ ',' :: itemChars rest

/-- The characters of the members of an object, and its end. -/
def memberChars : List (String × Json) → List Char
  | [] => ['\x7d']
  | [(n, v)] => quoted n ++ ':' :: chars v ++ ['\x7d']
  | (n, v) :: rest => quoted n ++ ':' :: chars v ++ ',' :: memberChars rest

end

/-- The text of a value. -/
def render (v : Json) : String := String.ofList v.chars

end TokenGate.Json
