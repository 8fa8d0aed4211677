import TokenGate.Json.Shape
import TokenGate.Json.Value

/-!
# Entries: reading records straight from texts

A record that is read from the tree of a text is visited in the order of the text, so the first
fault wins whether it is one of the grammar or of the shape. Unlike the members of a value, a known
member may not be repeated; an unknown one is passed over. A record may be written as an array here
too.
-/

namespace TokenGate.Json

/-- A way to read a node in which a number of further containers may be opened. -/
abbrev NodeShape (α : Type) := Nat → Node → Except Fault α

namespace NodeShape

/-- The fault of a node of another kind, once the node itself can be read. -/
def mismatch {α : Type} (expected : String) : Node → Except Fault α
  | .null => .error (.shape (.invalidType .null expected))
  | .bool b => .error (.shape (.invalidType (.bool b) expected))
  | .number (.ok n) => .error (.shape (.invalidType (found (.number n)) expected))
  | .number (.error f) => .error (.text f)
  | .string l =>
    match l.content with
    | .ok s => .error (.shape (.invalidType (.string s) expected))
    | .error f => .error (.text f)
  | .array _ _ => .error (.shape (.invalidType .sequence expected))
  | .object _ _ => .error (.shape (.invalidType .map expected))
  | .broken f => .error (.text f)

/-- Lifts a fault of the grammar. -/
def text {α : Type} (r : Except TextFault α) : Except Fault α := r.mapError .text

/-- Lifts a fault of the shape. -/
def shape {α : Type} (r : Except ShapeFault α) : Except Fault α := r.mapError .shape

/-- A text. -/
def string : NodeShape String := fun _ n =>
  match n with
  | .string l => text l.content
  | n => mismatch "a string" n

/-- A node, or null. -/
def optional {α : Type} (inner : NodeShape α) : NodeShape (Option α) := fun depth n =>
  match n with
  | .null => .ok none
  | n => some <$> inner depth n

/-- A list of items. -/
def list {α : Type} (item : NodeShape α) : NodeShape (List α) := fun depth n =>
  match n, depth with
  | .array _ _, 0 => .error (.text .tooDeep)
  | .array items stop, depth + 1 => do
    let as ← items.mapM (item depth)
    text (finish stop as)
  | n, _ => mismatch "a sequence" n

/-- A value of any kind, read as a value of its own. -/
def ofValue {α : Type} (f : Shape α) : NodeShape α := fun depth n => do
  let v ← text (n.value depth)
  shape (f v)

end NodeShape

/-- A member of a record in a text. -/
structure Entry (α : Type) where
  /-- Its name. -/
  name : String
  /-- Sets the member of a record to a node. -/
  set : Nat → Node → α → Except Fault α
  /-- Whether the member has to be there. -/
  required : Bool

namespace Entry

/-- A member that may be left out. -/
def free {α β : Type} (name : String) (inner : NodeShape β) (put : β → α → α) : Entry α :=
  ⟨name, fun depth n a => (put · a) <$> inner depth n, false⟩

/-- A member that has to be there. -/
def needed {α β : Type} (name : String) (inner : NodeShape β) (put : β → α → α) : Entry α :=
  ⟨name, fun depth n a => (put · a) <$> inner depth n, true⟩

variable {α : Type}

/-- Sets the members of an object in their order; `seen` are the known names met so far. -/
def setMembers (entries : List (Entry α)) (depth : Nat) (seen : List String) :
    List (Literal × Node) → α → Except Fault (α × List String)
  | [], a => .ok (a, seen)
  | (key, n) :: rest, a => do
    let name ← NodeShape.text key.content
    match entries.find? (·.name = name) with
    | some e =>
      if seen.contains name then .error (.shape (.duplicateField name))
      else setMembers entries depth (name :: seen) rest (← e.set depth n a)
    | none =>
      NodeShape.text n.passOver
      setMembers entries depth seen rest a

/-- Sets the members that the items of an array stand for, from the member at `index` on. -/
def setItems (expected : String) (depth index : Nat) :
    List (Entry α) → List Node → α → Except Fault α
  | [], [], a => .ok a
  | [], _ :: _, _ => .error (.text .trailingCharacters)
  | e :: entries, [], a =>
    if e.required then .error (.shape (.invalidLength index expected))
    else setItems expected depth (index + 1) entries [] a
  | e :: entries, n :: rest, a => do
    setItems expected depth (index + 1) entries rest (← e.set depth n a)

/-- What is said of an array that is too short for a record. -/
def arity (type : String) (entries : List (Entry α)) : String :=
  let n := entries.length
  s!"struct {type} with {n} element" ++ if n = 1 then "" else "s"

/-- A record that starts from its default. -/
def record (type : String) (start : α) (entries : List (Entry α)) : NodeShape α := fun depth n =>
  match n, depth with
  | .object _ _, 0 => .error (.text .tooDeep)
  | .array _ _, 0 => .error (.text .tooDeep)
  | .object members stop, depth + 1 => do
    let (a, seen) ← setMembers entries depth [] members start
    NodeShape.text (finish stop ())
    match entries.find? fun e => e.required && !seen.contains e.name with
    | some e => .error (.shape (.missingField e.name))
    | none => return a
  | .array items stop, depth + 1 => do
    let a ← setItems (arity type entries) depth 0 entries items start
    NodeShape.text (finish stop a)
  | n, _ => NodeShape.mismatch s!"struct {type}" n

end Entry

/-- Reads a text with a shape. -/
def readBytes {α : Type} (f : NodeShape α) (bytes : List UInt8) : Except Fault α :=
  (Document.ofBytes bytes).read (f depthLimit)

end TokenGate.Json
