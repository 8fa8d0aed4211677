import TokenGate.Settings.Setting
import TokenGate.Text.Basic
import TokenGate.Yaml.Node

/-!
# Documents: settings from a configuration file

A configuration file holds one YAML document, which is a mapping or has no content. What a plain
scalar stands for shows in its text: the lack of a value, a truth value, an integer, a number or a
text. An integer may be written with the base 16, 8 or 2; digits that start with a superfluous zero
are a text. A tag of the standard asks for one of these, and no other tag is known. Of entries with
the same name the last counts.
-/

namespace TokenGate.Settings.Document

open TokenGate.Number TokenGate.Yaml

/-! ### Scalars -/

/-- A sign in front, and what follows it. -/
def unsigned : List Char → List Char
  | '-' :: cs => cs
  | '+' :: cs => cs
  | cs => cs

/-- Whether digits start with a superfluous zero. -/
def isPadded (cs : List Char) : Bool :=
  match unsigned cs with
  | '0' :: c :: rest => (c :: rest).all Decimal.isDigit
  | _ => false

/-- The digits of a base, in either case. -/
def digits? (base : Nat) (cs : List Char) : Option Nat :=
  if cs = [] then none
  else cs.foldlM (fun n c => do
    let d ← Text.Hexadecimal.digit? c
    if d < base then some (n * base + d) else none) 0

/-- The natural with a base in front. -/
def based? : List Char → Option Nat
  | '0' :: 'x' :: cs => digits? 16 cs
  | '0' :: 'o' :: cs => digits? 8 cs
  | '0' :: 'b' :: cs => digits? 2 cs
  | _ => none

/-- The magnitude of an integer, and whether it has a minus sign. -/
def integer? (cs : List Char) : Option (Bool × Nat) :=
  let (negative, rest) := Decimal.splitSign cs
  match based? rest with
  | some n => some (negative, n)
  | none => if isPadded cs then none else (digits? 10 rest).map fun n => (negative, n)

/-- The integer of a text, if it fits into 128 bits. -/
def integerScalar? (cs : List Char) : Option Scalar :=
  match integer? cs with
  | some (false, n) => if n < Nat.pow 2 128 then some (.natural n) else none
  | some (true, n) => if n ≤ Nat.pow 2 127 then some (.integer (-(n : Int))) else none
  | none => none

/-- The names of infinity. -/
def infinities : List String := [".inf", ".Inf", ".INF"]

/-- The names of what is not a number. -/
def notNumbers : List String := [".nan", ".NaN", ".NAN"]

/-- The number of a text. -/
def real? (text : String) : Option Extended :=
  let cs := text.toList
  let positive := String.ofList (match cs with
    | '+' :: rest => rest
    | cs => cs)
  if infinities.contains positive then some (.infinite false)
  else if infinities.any fun name => text = "-" ++ name then some (.infinite true)
  else if notNumbers.contains text then some .notANumber
  else (Decimal.ofText? cs).filter Extended.isFinite

/-- Whether a text names the lack of a value. -/
def isNull (text : String) : Bool := ["null", "Null", "NULL", "~"].contains text

/-- The truth value that a text names. -/
def bool? (text : String) : Option Bool :=
  if ["true", "True", "TRUE"].contains text then some true
  else if ["false", "False", "FALSE"].contains text then some false
  else none

/-- What a plain text stands for. -/
def plain (text : String) : Scalar :=
  if text = "" || isNull text then .unit
  else match bool? text with
    | some b => .bool b
    | none =>
      match integerScalar? text.toList with
      | some s => s
      | none =>
        match if isPadded text.toList then none else real? text with
        | some x => .real x
        | none => .text text

/-- What a text stands for that has a tag. -/
def tagged? (tag text : String) : Option Scalar :=
  if tag.toList.head? = some '!' then none
  else if tag = "tag:yaml.org,2002:bool" then (bool? text).map .bool
  else if tag = "tag:yaml.org,2002:int" then integerScalar? text.toList
  else if tag = "tag:yaml.org,2002:float" then (real? text).map .real
  else if tag = "tag:yaml.org,2002:null" then if isNull text then some .unit else none
  else some (.text text)

/-- What a scalar stands for. -/
def scalar? : Option String → Style → String → Option Scalar
  | some tag, _, text => tagged? tag text
  | none, .plain, text => some (plain text)
  | none, .marked, text => some (.text text)

/-! ### Trees -/

/-- Whether a collection may have a tag. -/
def isPlainTag (tag : Option String) : Bool := tag.all fun t => t.toList.head? ≠ some '!'

/-- The name of an entry. -/
def name? : Node → Option String
  | .scalar _ _ text => some text
  | _ => none

mutual

/-- The setting of a node. -/
def setting? (o : Origin) : Node → Option Setting
  | .scalar tag style text => (scalar? tag style text).map (.scalar o)
  | .sequence tag items => if isPlainTag tag then (items? o items).map (.list o) else none
  | .mapping tag entries => if isPlainTag tag then (entries? o [] entries).map (.table o) else none

/-- The settings of nodes. -/
def items? (o : Origin) : List Node → Option (List Setting)
  | [] => some []
  | n :: rest => do
    let s ← setting? o n
    return s :: (← items? o rest)

/-- The settings of entries, put to those before. -/
def entries? (o : Origin) (done : List (String × Setting)) :
    List (Node × Node) → Option (List (String × Setting))
  | [] => some done
  | (k, v) :: rest => do
    let name ← name? k
    let s ← setting? o v
    entries? o (Setting.put name s done) rest

end

/-- The table of a document; a document without content is empty. -/
def table? (o : Origin) : Option Node → Option Setting
  | none => some (.table o [])
  | some (.scalar _ .plain "") => some (.table o [])
  | some (.mapping _ entries) => (entries? o [] entries).map (.table o)
  | some _ => none

/-- The settings of a file. -/
def ofText? (file text : String) : Option Setting := do
  table? (.file file) (← Node.ofText? text)

end TokenGate.Settings.Document
