import TokenGate.Json.Lexer

/-!
# Reading JSON texts

A text is read into a tree first, and the tree is read as a value or as data. So what a text is
refused for depends on what it is read as.
-/

/-!
## Nodes: the tree of a JSON text, as far as the text holds

A text is read into a tree whether or not it keeps to the grammar. Where it does not, the tree ends:
a container that cannot go on carries the fault as its `stop`, and a value that cannot be read is a
`broken` node. A reader that visits a tree in the order of the text therefore meets the first fault
of the text where a reader of the text itself would, and may find before it that a value has the
wrong shape.

The reader goes through the tokens once and keeps the containers that are still open on a stack.
-/

namespace TokenGate.Json

/-- A value of a text. -/
inductive Node
  | null
  | bool (value : Bool)
  | number (value : Except TextFault Number)
  | string (value : Literal)
  | array (items : List Node) (stop : Option TextFault)
  | object (members : List (Literal × Node)) (stop : Option TextFault)
  | broken (fault : TextFault)

namespace Node

/-- A container that is still open, with what it holds so far, the last one first. -/
inductive Frame
  | array (items : List Node)
  | object (members : List (Literal × Node)) (key : Literal)

/-- What may come next. -/
inductive Place
  /-- A value: at the start of the text, or after a colon. -/
  | value
  /-- An item, or the end of an array that has none yet. -/
  | firstItem
  /-- An item, after a comma. -/
  | item (items : List Node)
  /-- A comma, or the end of an array. -/
  | afterItem (items : List Node)
  /-- A name, or the end of an object that has none yet. -/
  | firstName
  /-- A name, after a comma. -/
  | name (members : List (Literal × Node))
  /-- A colon. -/
  | colon (members : List (Literal × Node)) (key : Literal)
  /-- A comma, or the end of an object. -/
  | afterMember (members : List (Literal × Node))

/-- What a token leads to. -/
inductive Step
  | more (place : Place) (open_ : List Frame)
  /-- The text's value is complete. -/
  | complete (node : Node)
  /-- The text's tree ends here. -/
  | stopped (node : Node)

/-- The tree of a node that ends inside some open containers. -/
def abandon (node : Node) : List Frame → Node
  | [] => node
  | .array items :: rest => abandon (.array (node :: items).reverse none) rest
  | .object members key :: rest => abandon (.object ((key, node) :: members).reverse none) rest

/-- A complete node takes its place in the innermost open container. -/
def deliver (node : Node) : List Frame → Step
  | [] => .complete node
  | .array items :: rest => .more (.afterItem (node :: items)) rest
  | .object members key :: rest => .more (.afterMember ((key, node) :: members)) rest

/-- The step from a place for a value; `none` is the end of the text. -/
def stepValue (frames : List Frame) : Option Token → Step
  | none => .stopped (abandon (.broken .endOfValue) frames)
  | some .openArray => .more .firstItem frames
  | some .openObject => .more .firstName frames
  | some .null => deliver .null frames
  | some (.bool b) => deliver (.bool b) frames
  | some (.number n) => deliver (.number n) frames
  | some (.string l) =>
    if l.blocked.isSome then .stopped (abandon (.string l) frames)
    else deliver (.string l) frames
  | some (.broken f) => .stopped (abandon (.broken f) frames)
  | some _ => .stopped (abandon (.broken .expectedValue) frames)

/-- The step from a place for a name. -/
def stepName (members : List (Literal × Node)) (frames : List Frame) (key : Literal) : Step :=
  match key.blocked with
  | some f => .stopped (abandon (.object ((key, .broken f) :: members).reverse none) frames)
  | none => .more (.colon members key) frames

/-- The step of the next token; `none` is the end of the text. -/
def step (token : Option Token) (frames : List Frame) : Place → Step
  | .value => stepValue frames token
  | .firstItem =>
    match token with
    | some .closeArray => deliver (.array [] none) frames
    | none => .stopped (abandon (.array [] (some .endOfList)) frames)
    | token => stepValue (.array [] :: frames) token
  | .item items =>
    match token with
    | some .closeArray => .stopped (abandon (.array items.reverse (some .trailingComma)) frames)
    | token => stepValue (.array items :: frames) token
  | .afterItem items =>
    match token with
    | some .comma => .more (.item items) frames
    | some .closeArray => deliver (.array items.reverse none) frames
    | none => .stopped (abandon (.array items.reverse (some .endOfList)) frames)
    | some _ => .stopped (abandon (.array items.reverse (some .expectedListCommaOrEnd)) frames)
  | .firstName =>
    match token with
    | some (.string key) => stepName [] frames key
    | some .closeObject => deliver (.object [] none) frames
    | none => .stopped (abandon (.object [] (some .endOfObject)) frames)
    | some _ => .stopped (abandon (.object [] (some .keyMustBeString)) frames)
  | .name members =>
    match token with
    | some (.string key) => stepName members frames key
    | some .closeObject =>
      .stopped (abandon (.object members.reverse (some .trailingComma)) frames)
    | none => .stopped (abandon (.object members.reverse (some .endOfValue)) frames)
    | some _ => .stopped (abandon (.object members.reverse (some .keyMustBeString)) frames)
  | .colon members key =>
    match token with
    | some .colon => .more .value (.object members key :: frames)
    | none =>
      .stopped (abandon (.object ((key, .broken .endOfObject) :: members).reverse none) frames)
    | some _ =>
      .stopped (abandon (.object ((key, .broken .expectedColon) :: members).reverse none) frames)
  | .afterMember members =>
    match token with
    | some .comma => .more (.name members) frames
    | some .closeObject => deliver (.object members.reverse none) frames
    | none => .stopped (abandon (.object members.reverse (some .endOfObject)) frames)
    | some _ =>
      .stopped (abandon (.object members.reverse (some .expectedObjectCommaOrEnd)) frames)

/-- The tree of some tokens, and whether tokens are left behind its value. -/
def read (place : Place) (frames : List Frame) : List Token → Node × Bool
  | [] =>
    match step none frames place with
    | .complete node | .stopped node => (node, false)
    | .more _ _ => (.broken .endOfValue, false)
  | t :: ts =>
    match step (some t) frames place with
    | .complete node => (node, !ts.isEmpty)
    | .stopped node => (node, false)
    | .more place frames => read place frames ts

end Node

/-- A text as a tree. -/
structure Document where
  /-- The value of the text. -/
  root : Node
  /-- Whether something other than blanks follows the value. -/
  trailing : Bool

/-- The document of a text. -/
def Document.ofBytes (bytes : List UInt8) : Document :=
  let (root, trailing) := Node.read .value [] (Lexer.lex bytes)
  ⟨root, trailing⟩

/-- Reads a document: first its value, then that nothing follows. -/
def Document.read {α : Type} (f : Node → Except Fault α) (d : Document) : Except Fault α := do
  let a ← f d.root
  if d.trailing then .error (.text .trailingCharacters) else return a

/-!
## Values of texts

`Json.ofBytes` reads a text as a value: every string needs its content, every number has to be in
range, at most 127 containers may stand inside each other, and of repeated members the last counts.
A member that nobody asks for is only passed over (`Node.passOver`), which wants none of that.
-/

/-- The number of containers that may be open at once. -/
def depthLimit : Nat := 127

/-- Ends the reading of a container. -/
def finish {α : Type} (stop : Option TextFault) (a : α) : Except TextFault α :=
  match stop with
  | some f => .error f
  | none => .ok a

namespace Node

mutual

/-- The value of a tree in which `depth` further containers may be opened. -/
def value (depth : Nat) : Node → Except TextFault Json
  | .null => .ok .null
  | .bool b => .ok (.bool b)
  | .number n => n.map .number
  | .string l => l.content.map .string
  | .array items stop =>
    match depth with
    | 0 => .error .tooDeep
    | depth + 1 => do finish stop (.array (← values depth items))
  | .object ms stop =>
    match depth with
    | 0 => .error .tooDeep
    | depth + 1 => do finish stop (.object (sorted (← memberValues depth ms)))
  | .broken f => .error f

/-- The values of the items of an array. -/
def values (depth : Nat) : List Node → Except TextFault (List Json)
  | [] => .ok []
  | n :: rest => do
    let v ← value depth n
    let vs ← values depth rest
    return v :: vs

/-- The members of an object with their values, in the order of the text. -/
def memberValues (depth : Nat) : List (Literal × Node) → Except TextFault (List (String × Json))
  | [] => .ok []
  | (key, n) :: rest => do
    let k ← key.content
    let v ← value depth n
    let vs ← memberValues depth rest
    return (k, v) :: vs

end

/-- Lets a literal pass. -/
def passLiteral (l : Literal) : Except TextFault Unit := finish l.blocked ()

mutual

/-- Passes over a tree without asking for its content. -/
def passOver : Node → Except TextFault Unit
  | .null | .bool _ | .number _ => .ok ()
  | .string l => passLiteral l
  | .array items stop => do
    passItems items
    finish stop ()
  | .object ms stop => do
    passMembers ms
    finish stop ()
  | .broken f => .error f

/-- Passes over the items of an array. -/
def passItems : List Node → Except TextFault Unit
  | [] => .ok ()
  | n :: rest => do
    passOver n
    passItems rest

/-- Passes over the members of an object. -/
def passMembers : List (Literal × Node) → Except TextFault Unit
  | [] => .ok ()
  | (key, n) :: rest => do
    passLiteral key
    passOver n
    passMembers rest

end

end Node

/-- Reads a text as a value. -/
def ofBytes (bytes : List UInt8) : Except TextFault Json := do
  let d := Document.ofBytes bytes
  let v ← d.root.value depthLimit
  if d.trailing then .error .trailingCharacters else return v

/-- Reads a text as a value. -/
def ofText (s : String) : Except TextFault Json := ofBytes (Text.Utf8.encode s)

end TokenGate.Json
