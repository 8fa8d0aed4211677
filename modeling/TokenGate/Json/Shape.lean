import TokenGate.Json.Basic
import TokenGate.Number.Binary64
import TokenGate.Text.Printable

/-!
# Shapes: reading values as data

A shape reads a value and says what is wrong with one that does not fit. Strings, truth values,
integers of a width, lists, optional values and choices among names are the simple shapes.

A record is read from its default by setting one member after the other. It is written as an object,
whose members are visited in their order and whose unknown members are ignored, or as an array of
the members in the order of the declaration. In either form a member may be left out unless it is
required.
-/

/-!
## Faults: why a text or a value cannot be read

A text that breaks the grammar has a `TextFault`; a value that does not have the shape that is asked
for has a `ShapeFault`, which says what was found and what was expected. Reading a record straight
from a text can meet either. Each has one wording.
-/

namespace TokenGate.Json

/-- A breach of the grammar of JSON texts. -/
inductive TextFault
  | endOfList
  | endOfObject
  | endOfString
  | endOfValue
  | expectedColon
  | expectedListCommaOrEnd
  | expectedObjectCommaOrEnd
  | expectedIdent
  | expectedValue
  | invalidEscape
  | invalidNumber
  | numberOutOfRange
  | invalidCodePoint
  | controlCharacter
  | keyMustBeString
  | loneSurrogate
  | trailingComma
  | trailingCharacters
  | endOfEscape
  | tooDeep
  deriving DecidableEq, Repr

/-- The wording of a breach of the grammar. -/
def TextFault.message : TextFault → String
  | .endOfList => "EOF while parsing a list"
  | .endOfObject => "EOF while parsing an object"
  | .endOfString => "EOF while parsing a string"
  | .endOfValue => "EOF while parsing a value"
  | .expectedColon => "expected `:`"
  | .expectedListCommaOrEnd => "expected `,` or `]`"
  | .expectedObjectCommaOrEnd => "expected `,` or `\x7d`"
  | .expectedIdent => "expected ident"
  | .expectedValue => "expected value"
  | .invalidEscape => "invalid escape"
  | .invalidNumber => "invalid number"
  | .numberOutOfRange => "number out of range"
  | .invalidCodePoint => "invalid unicode code point"
  | .controlCharacter => "control character (\\u0000-\\u001F) found while parsing a string"
  | .keyMustBeString => "key must be a string"
  | .loneSurrogate => "lone leading surrogate in hex escape"
  | .trailingComma => "trailing comma"
  | .trailingCharacters => "trailing characters"
  | .endOfEscape => "unexpected end of hex escape"
  | .tooDeep => "recursion limit exceeded"

/-- The part of a value that a fault shows. -/
inductive Found
  | null
  | bool (value : Bool)
  | int (value : Int)
  | float (value : TokenGate.Number.Binary64)
  | string (value : String)
  | sequence
  | map
  deriving DecidableEq, Repr

/-- What a fault shows of a value. -/
def found : Json → Found
  | .null => .null
  | .bool b => .bool b
  | .number (.int z) => .int z
  | .number (.float x) => .float x
  | .string s => .string s
  | .array _ => .sequence
  | .object _ => .map

/-- The wording of what was found. -/
def Found.message : Found → String
  | .null => "null"
  | .bool b => s!"boolean `{b}`"
  | .int z => s!"integer `{z}`"
  | .float x => s!"floating point `{TokenGate.Number.Shortest.compact x}`"
  | .string s => "string " ++ Text.Quoted.quote s
  | .sequence => "sequence"
  | .map => "map"

/-- A value that does not have the shape that is asked for. -/
inductive ShapeFault
  /-- A value of another kind. -/
  | invalidType (found : Found) (expected : String)
  /-- A value of the right kind, out of its range. -/
  | invalidValue (found : Found) (expected : String)
  /-- A sequence with too few or too many items. -/
  | invalidLength (length : Nat) (expected : String)
  /-- A record without a member that it needs. -/
  | missingField (name : String)
  /-- A record with a member given twice. -/
  | duplicateField (name : String)
  /-- A name that is none of a choice. -/
  | unknownVariant (name : String) (known : List String)
  /-- A choice written as an object with other than one member. -/
  | notSingleKey
  /-- A value that fits none of several forms. -/
  | noMatchingVariant (type : String)
  /-- A text that cannot be read. -/
  | unreadable (reason : String)
  deriving DecidableEq, Repr

/-- A name between backticks. -/
def ticked (name : String) : String := "`" ++ name ++ "`"

/-- The names of a choice: alone, in a pair, or in a list. -/
def expectedNames : List String → String
  | [] => "there are no variants"
  | [a] => "expected " ++ ticked a
  | [a, b] => "expected " ++ ticked a ++ " or " ++ ticked b
  | names => "expected one of " ++ ", ".intercalate (names.map ticked)

/-- The wording of a value of the wrong shape. -/
def ShapeFault.message : ShapeFault → String
  | .invalidType f e => s!"invalid type: {f.message}, expected {e}"
  | .invalidValue f e => s!"invalid value: {f.message}, expected {e}"
  | .invalidLength n e => s!"invalid length {n}, expected {e}"
  | .missingField n => s!"missing field {ticked n}"
  | .duplicateField n => s!"duplicate field {ticked n}"
  | .unknownVariant n known => s!"unknown variant {ticked n}, {expectedNames known}"
  | .notSingleKey => "invalid value: map, expected map with a single key"
  | .noMatchingVariant t => s!"data did not match any variant of untagged enum {t}"
  | .unreadable r => r

/-- Why a record cannot be read from a text. -/
inductive Fault
  | text (fault : TextFault)
  | shape (fault : ShapeFault)
  deriving DecidableEq, Repr

/-- The wording of a fault. -/
def Fault.message : Fault → String
  | .text f => f.message
  | .shape f => f.message

/-! ## Readings -/

/-- A way to read a value. -/
abbrev Shape (α : Type) := Json → Except ShapeFault α

namespace Shape

/-- The fault of a value of another kind. -/
def mismatch {α : Type} (expected : String) (v : Json) : Except ShapeFault α :=
  .error (.invalidType (found v) expected)

/-- A text. -/
def string : Shape String
  | .string s => .ok s
  | v => mismatch "a string" v

/-- A truth value. -/
def bool : Shape Bool
  | .bool b => .ok b
  | v => mismatch "a boolean" v

/-- An integer for which a test holds. -/
def integer (fits : Int → Bool) (expected : String) : Shape Int
  | .number (.int z) => if fits z then .ok z else .error (.invalidValue (.int z) expected)
  | v => mismatch expected v

/-- An integer of 64 bits with a sign. -/
def int64 : Shape Int64 := fun v => Int64.ofInt <$> integer fitsInt64 "i64" v

/-- An integer of 64 bits without a sign. -/
def uint64 : Shape UInt64 := fun v => UInt64.ofInt <$> integer fitsUInt64 "u64" v

/-- An integer of 16 bits without a sign. -/
def uint16 : Shape UInt16 := fun v => UInt16.ofInt <$> integer fitsUInt16 "u16" v

/-- A list of items. -/
def list {α : Type} (item : Shape α) : Shape (List α)
  | .array items => items.mapM item
  | v => mismatch "a sequence" v

/-- A value, or null. -/
def optional {α : Type} (shape : Shape α) : Shape (Option α)
  | .null => .ok none
  | v => some <$> shape v

/-- The alternative of a name. -/
def named {α : Type} (choices : List (String × α)) (name : String) : Except ShapeFault α :=
  match choices.lookup name with
  | some a => .ok a
  | none => .error (.unknownVariant name (choices.map Prod.fst))

/-- One of several names, alone or as the only member of an object, where it has no content. -/
def choice {α : Type} (choices : List (String × α)) : Shape α
  | .string name => named choices name
  | .object [(name, content)] => do
    let a ← named choices name
    match content with
    | .null => return a
    | v => mismatch "unit" v
  | .object _ => .error .notSingleKey
  | v => mismatch "string or map" v

end Shape

/-! ### Records -/

/-- A member of a record. -/
structure Member (α : Type) where
  /-- Its name. -/
  name : String
  /-- Sets the member of a record to a value. -/
  set : Json → α → Except ShapeFault α
  /-- Whether the member has to be there. -/
  required : Bool

namespace Member

/-- A member that may be left out. -/
def free {α β : Type} (name : String) (shape : Shape β) (put : β → α → α) : Member α :=
  ⟨name, fun v a => (put · a) <$> shape v, false⟩

/-- A member that has to be there. -/
def needed {α β : Type} (name : String) (shape : Shape β) (put : β → α → α) : Member α :=
  ⟨name, fun v a => (put · a) <$> shape v, true⟩

end Member

namespace Record

variable {α : Type}

/-- Sets the members of an object in their order. -/
def setMembers (fields : List (Member α)) : List (String × Json) → α → Except ShapeFault α
  | [], a => .ok a
  | (name, v) :: rest, a =>
    match fields.find? (·.name = name) with
    | some f => do setMembers fields rest (← f.set v a)
    | none => setMembers fields rest a

/-- The first required member that an object does not have. -/
def missing? (fields : List (Member α)) (members : List (String × Json)) : Option String :=
  (fields.find? fun f => f.required && !members.any (·.1 = f.name)).map (·.name)

/-- What is said of an array that is too short for a record. -/
def arity (type : String) (fields : List (Member α)) : String :=
  let n := fields.length
  s!"struct {type} with {n} element" ++ if n = 1 then "" else "s"

/-- Sets the members that the items of an array stand for, from the member at `index` on. -/
def setItems (expected : String) (index : Nat) :
    List (Member α) → List Json → α → Except ShapeFault α
  | [], [], a => .ok a
  | [], rest@(_ :: _), _ => .error (.invalidLength (index + rest.length) "fewer elements in array")
  | f :: fields, [], a =>
    if f.required then .error (.invalidLength index expected)
    else setItems expected (index + 1) fields [] a
  | f :: fields, v :: rest, a => do
    setItems expected (index + 1) fields rest (← f.set v a)

/-- A record that starts from its default. -/
def shape (type : String) (start : α) (fields : List (Member α)) : Shape α
  | .object members => do
    let a ← setMembers fields members start
    match missing? fields members with
    | some name => .error (.missingField name)
    | none => return a
  | .array items => setItems (arity type fields) 0 fields items start
  | v => Shape.mismatch s!"struct {type}" v

/-- Sets the members of an object whose known names may not be repeated; `seen` are those met. -/
def setDistinct (fields : List (Member α)) (seen : List String) :
    List (String × Json) → α → Except ShapeFault α
  | [], a => .ok a
  | (name, v) :: rest, a =>
    match fields.find? (·.name = name) with
    | some f =>
      if seen.contains name then .error (.duplicateField name)
      else do setDistinct fields (name :: seen) rest (← f.set v a)
    | none => setDistinct fields seen rest a

/-- Reads a record from members in the order of a text. -/
def ofMembers (start : α) (fields : List (Member α)) (members : List (String × Json)) :
    Except ShapeFault α := do
  let a ← setDistinct fields [] members start
  match missing? fields members with
  | some name => .error (.missingField name)
  | none => return a

end Record

end TokenGate.Json
