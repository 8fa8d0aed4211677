import TokenGate.Yaml.Token

/-!
# Nodes: the content of a YAML document

A document is a tree of scalars, sequences and mappings, each with a tag or none. An alias stands
for the node with its anchor, which has to be whole by then. How deep the tree is with all aliases
followed, and how often an alias is followed in all, is counted while it is read; both are bounded,
the second by a hundred times the number of nodes and ends of nodes that the text spells out.
-/

namespace TokenGate.Yaml

/-- The content of a document. -/
inductive Node
  | scalar (tag : Option String) (style : Style) (text : String)
  | sequence (tag : Option String) (items : List Node)
  | mapping (tag : Option String) (entries : List (Node × Node))

namespace Node

/-- What a node without content stands for. -/
def missing (tag : Option String) : Node := .scalar tag .plain ""

/-- A node and what has been counted of it. -/
structure Counted where
  node : Node
  /-- The nodes and the ends of collections that are spelled out. -/
  events : Nat
  /-- The number of collections inside of each other. -/
  depth : Nat
  /-- How often an alias is followed. -/
  jumps : Nat

/-- A scalar counts once. -/
def Counted.leaf (n : Node) : Counted := ⟨n, 1, 0, 0⟩

/-- An alias counts once, and is followed. -/
def Counted.alias (c : Counted) : Counted := ⟨c.node, 1, c.depth, c.jumps + 1⟩

/-- A collection counts at its start and at its end. -/
def Counted.collection (n : Node) (parts : List Counted) : Counted :=
  { node := n
    events := parts.foldl (fun n c => n + c.events) 2
    depth := 1 + parts.foldl (fun n c => max n c.depth) 0
    jumps := parts.foldl (fun n c => n + c.jumps) 0 }

/-- What is left to read, and what the nodes so far are called. -/
structure State where
  tokens : List Token
  /-- The nodes by their anchors; a node that is not yet whole has none. -/
  anchors : List (String × Option Counted)
  /-- What the handles of tags stand for. -/
  handles : List (String × String)

/-- The properties of a node. -/
structure Properties where
  anchor : Option String
  tag : Option String

/-- Names a node; before it is whole, nothing. -/
def State.name (s : State) (p : Properties) (c : Option Counted) : State :=
  match p.anchor with
  | some name => { s with anchors := (name, c) :: s.anchors }
  | none => s

/-- The tag of a handle and a suffix. -/
def State.resolve? (s : State) (handle suffix : String) : Option String :=
  if handle = "" then some suffix else (s.handles.lookup handle).map (· ++ suffix)

/-- The properties in front, which come in either order. -/
def State.properties? (s : State) : Option (Properties × State) :=
  match s.tokens with
  | .anchor a :: .tag h t :: rest => do
    return (⟨some a, some (← s.resolve? h t)⟩, { s with tokens := rest })
  | .tag h t :: .anchor a :: rest => do
    return (⟨some a, some (← s.resolve? h t)⟩, { s with tokens := rest })
  | .anchor a :: rest => some (⟨some a, none⟩, { s with tokens := rest })
  | .tag h t :: rest => do
    return (⟨none, some (← s.resolve? h t)⟩, { s with tokens := rest })
  | _ => some (⟨none, none⟩, s)

/-- Where a node stands. -/
inductive Place
  /-- Inside of brackets or braces. -/
  | flow
  /-- Where a block collection may stand. -/
  | block
  /-- As a key or a value, where a sequence need not be indented. -/
  | entry
  deriving DecidableEq

/-- The tokens that end a place without a node. -/
def endsPlace (stops : List Token) : List Token → Bool
  | [] => true
  | t :: _ => stops.contains t

/-- The node without content. -/
def blank : Counted := .leaf (missing none)

/-- The parts of entries, keys and values in turn. -/
def parts (entries : List (Counted × Counted)) : List Counted :=
  entries.flatMap fun (k, v) => [k, v]

/-- A mapping of entries. -/
def ofEntries (tag : Option String) (entries : List (Counted × Counted)) : Counted :=
  .collection (.mapping tag (entries.map fun (k, v) => (k.node, v.node))) (parts entries)

/-- A sequence of items. -/
def ofItems (tag : Option String) (items : List Counted) : Counted :=
  .collection (.sequence tag (items.map Counted.node)) items

mutual

/-- The node in front. -/
def node? (place : Place) : Nat → State → Option (Counted × State)
  | 0, _ => none
  | fuel + 1, s =>
    match s.tokens with
    | .alias name :: rest => do
      let c ← (← s.anchors.lookup name)
      return (c.alias, { s with tokens := rest })
    | _ => do
      let (p, s) ← s.properties?
      let inside (rest : List Token) : State := { s with tokens := rest }.name p none
      let (c, s) ← match s.tokens with
        | .scalar style text :: rest =>
          some (.leaf (.scalar p.tag style text), { s with tokens := rest })
        | .flowSequenceStart :: rest =>
          (flowItems? true fuel (inside rest)).map fun (cs, s) => (ofItems p.tag cs, s)
        | .flowMappingStart :: rest =>
          (flowEntries? true fuel (inside rest)).map fun (es, s) => (ofEntries p.tag es, s)
        | .blockSequenceStart :: rest =>
          if place = .flow then none
          else (blockItems? true fuel (inside rest)).map fun (cs, s) => (ofItems p.tag cs, s)
        | .blockMappingStart :: rest =>
          if place = .flow then none
          else (blockEntries? fuel (inside rest)).map fun (es, s) => (ofEntries p.tag es, s)
        | .blockEntry :: rest =>
          if place = .entry then
            (blockItems? false fuel (inside (.blockEntry :: rest))).map fun (cs, s) =>
              (ofItems p.tag cs, s)
          else if p.anchor.isSome || p.tag.isSome then some (.leaf (missing p.tag), s)
          else none
        | _ =>
          if p.anchor.isSome || p.tag.isSome then some (.leaf (missing p.tag), s) else none
      return (c, s.name p (some c))

/-- The node in front, unless its place ends at once. -/
def nodeOrBlank? (place : Place) (stops : List Token) : Nat → State → Option (Counted × State)
  | 0, _ => none
  | fuel + 1, s => if endsPlace stops s.tokens then some (blank, s) else node? place fuel s

/-- The items of a block sequence; one that is not indented has no token at its end. -/
def blockItems? (isIndented : Bool) : Nat → State → Option (List Counted × State)
  | 0, _ => none
  | fuel + 1, s =>
    match s.tokens with
    | .blockEntry :: rest => do
      let stops := if isIndented then [.blockEntry, .blockEnd]
        else [.blockEntry, .key, .value, .blockEnd]
      let (c, s) ← nodeOrBlank? .block stops fuel { s with tokens := rest }
      let (cs, s) ← blockItems? isIndented fuel s
      return (c :: cs, s)
    | .blockEnd :: rest => some ([], if isIndented then { s with tokens := rest } else s)
    | _ => if isIndented then none else some ([], s)

/-- The entries of a block mapping. -/
def blockEntries? : Nat → State → Option (List (Counted × Counted) × State)
  | 0, _ => none
  | fuel + 1, s =>
    match s.tokens with
    | .key :: rest => do
      let stops := [.key, .value, .blockEnd]
      let (k, s) ← nodeOrBlank? .entry stops fuel { s with tokens := rest }
      let (v, s) ← match s.tokens with
        | .value :: rest => nodeOrBlank? .entry stops fuel { s with tokens := rest }
        | _ => some (blank, s)
      let (es, s) ← blockEntries? fuel s
      return ((k, v) :: es, s)
    | .blockEnd :: rest => some ([], { s with tokens := rest })
    | _ => none

/-- A value in brackets or braces, if there is one. -/
def flowValue? (stops : List Token) : Nat → State → Option (Counted × State)
  | 0, _ => none
  | fuel + 1, s =>
    match s.tokens with
    | .value :: rest => nodeOrBlank? .flow stops fuel { s with tokens := rest }
    | _ => some (blank, s)

/-- The items in brackets; between two there is a comma. -/
def flowItems? (isFirst : Bool) : Nat → State → Option (List Counted × State)
  | 0, _ => none
  | fuel + 1, s =>
    match isFirst, s.tokens with
    | _, .flowSequenceEnd :: rest => some ([], { s with tokens := rest })
    | false, .flowEntry :: .flowSequenceEnd :: rest => some ([], { s with tokens := rest })
    | false, .flowEntry :: rest => flowItem? fuel { s with tokens := rest }
    | true, _ => flowItem? fuel s
    | false, _ => none

/-- An item in brackets and those behind it; a key with a value is a mapping of its own. -/
def flowItem? : Nat → State → Option (List Counted × State)
  | 0, _ => none
  | fuel + 1, s => do
    let (c, s) ← match s.tokens with
      | .key :: rest => do
        let (k, s) ← nodeOrBlank? .flow [.value, .flowEntry, .flowSequenceEnd] fuel
          { s with tokens := rest }
        let (v, s) ← flowValue? [.flowEntry, .flowSequenceEnd] fuel s
        some (ofEntries none [(k, v)], s)
      | _ => node? .flow fuel s
    let (cs, s) ← flowItems? false fuel s
    return (c :: cs, s)

/-- The entries in braces; between two there is a comma. -/
def flowEntries? (isFirst : Bool) : Nat → State → Option (List (Counted × Counted) × State)
  | 0, _ => none
  | fuel + 1, s =>
    match isFirst, s.tokens with
    | _, .flowMappingEnd :: rest => some ([], { s with tokens := rest })
    | false, .flowEntry :: .flowMappingEnd :: rest => some ([], { s with tokens := rest })
    | false, .flowEntry :: rest => flowPair? fuel { s with tokens := rest }
    | true, _ => flowPair? fuel s
    | false, _ => none

/-- An entry in braces and those behind it. -/
def flowPair? : Nat → State → Option (List (Counted × Counted) × State)
  | 0, _ => none
  | fuel + 1, s => do
    let ((k, v), s) ← match s.tokens with
      | .key :: rest => do
        let (k, s) ← nodeOrBlank? .flow [.value, .flowEntry, .flowMappingEnd] fuel
          { s with tokens := rest }
        let (v, s) ← flowValue? [.flowEntry, .flowMappingEnd] fuel s
        some ((k, v), s)
      | _ => do
        let (k, s) ← node? .flow fuel s
        some ((k, blank), s)
    let (es, s) ← flowEntries? false fuel s
    return ((k, v) :: es, s)

end

/-! ### Documents -/

/-- The handles that need no directive. -/
def standardHandles : List (String × String) :=
  [("!", "!"), ("!!", "tag:yaml.org,2002:")]

/-- The handles of directives, and what follows those; a version has to be known, and neither a
version nor a handle may be given twice. -/
def directives? (hasVersion : Bool) (handles : List (String × String)) :
    List Token → Option (Bool × List (String × String) × List Token)
  | .version major minor :: rest =>
    if hasVersion || major ≠ 1 || (minor ≠ 1 && minor ≠ 2) then none
    else directives? true handles rest
  | .handle name expansion :: rest =>
    if (handles.lookup name).isSome then none
    else directives? hasVersion ((name, expansion) :: handles) rest
  | rest => some (hasVersion, handles, rest)

/-- The tokens behind the marks at the end of a document. -/
def afterEnd (tokens : List Token) : List Token := tokens.dropWhile (· = .documentEnd)

/-- The number of collections that may stand inside of each other. -/
def depthLimit : Nat := 128

/-- The only document of some tokens; none if there is nothing to read. -/
def ofTokens? (tokens : List Token) : Option (Option Node) := do
  let (hasVersion, handles, rest) ← directives? false [] tokens
  let isDirected := hasVersion || !handles.isEmpty
  let state (tokens : List Token) : State := ⟨tokens, [], handles ++ standardHandles⟩
  let fuel := 4 * tokens.length + 4
  let (c, s) ← match rest with
    | .documentStart :: rest =>
      nodeOrBlank? .block [.documentStart, .documentEnd, .streamEnd] fuel (state rest)
    | [.streamEnd] => if isDirected then none else some (blank, state rest)
    | _ => if isDirected then none else node? .block fuel (state rest)
  if afterEnd s.tokens = [.streamEnd] && c.depth ≤ depthLimit && c.jumps ≤ 100 * c.events then
    return if rest = [.streamEnd] then none else some c.node
  else none

/-- The only document of a text; none inside if the text has no content. -/
def ofText? (text : String) : Option (Option Node) := do
  ofTokens? (← tokens? text.toList)

end Node

end TokenGate.Yaml
