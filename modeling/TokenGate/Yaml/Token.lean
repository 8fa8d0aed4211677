import TokenGate.Number.Binary64
import TokenGate.Text.Basic
import TokenGate.Text.Octets
import TokenGate.Yaml.Scalar

/-!
# From a YAML text to its tokens

What a text consists of, before it is known which parts of it belong together.
-/

/-!
## Tokens

Indentation shows in tokens: a block collection has a token for its start and one for its end.
-/

namespace TokenGate.Yaml

/-- How a scalar is written. -/
inductive Style
  /-- Without quotes. -/
  | plain
  /-- Between quotes, or as an indented block. -/
  | marked
  deriving DecidableEq, Repr

/-- A token. -/
inductive Token
  | streamEnd
  | documentStart
  | documentEnd
  /-- The version of the language that a document follows. -/
  | version (major minor : Nat)
  /-- What a tag handle stands for. -/
  | handle (name expansion : String)
  | blockSequenceStart
  | blockMappingStart
  | blockEnd
  | flowSequenceStart
  | flowSequenceEnd
  | flowMappingStart
  | flowMappingEnd
  | blockEntry
  | flowEntry
  | key
  | value
  | anchor (name : String)
  | alias (name : String)
  | tag (handle suffix : String)
  | scalar (style : Style) (text : String)
  deriving DecidableEq, Repr

end TokenGate.Yaml

/-!
## Names, tags and directives

An anchor and its aliases have a name; a tag is a handle with a suffix, or a text between angles;
a directive stands on a line of its own and gives the version of the language or the expansion of a
handle.
-/

namespace TokenGate.Yaml.Property

/-- Whether a character belongs to a name. -/
def isName (c : Char) : Bool := c.isAlphanum || c = '_' || c = '-'

/-- The name in front, which has to end at white space or at an indicator. -/
def name? (k : Cursor) : Option (String × Cursor) :=
  let name := k.front isName
  let k := k.advance name.length
  let ends := isEnd k.rest || k.rest.head?.any fun c => "?:,]\x7d%@`".toList.contains c
  if name ≠ [] && ends then some (String.ofList name, k) else none

/-! ### Tags -/

/-- Whether a character belongs to a tag; some do only between angles and in expansions. -/
def isTag (isWide : Bool) (c : Char) : Bool :=
  isName c || ";/?:@&=+$.!~*'()%".toList.contains c || (isWide && (c = ',' || c = '[' || c = ']'))

/-- The octets that the characters of a tag stand for. -/
def octets? : List Char → Option (List UInt8)
  | [] => some []
  | '%' :: a :: b :: rest => do
    return (← Text.Hexadecimal.octet? a b) :: (← octets? rest)
  | '%' :: _ => none
  | c :: rest => (octets? rest).map (Text.Utf8.encodeChar c ++ ·)

/-- The text of the tag characters in front. -/
def tagText? (isWide : Bool) (k : Cursor) : Option (String × Cursor) := do
  let raw := k.front (isTag isWide)
  let text ← (Text.Utf8.decode (← octets? raw)).toOption
  return (text, k.advance raw.length)

/-- The handle in front, from its mark on. -/
def handle (k : Cursor) : String × Cursor :=
  let name := (k.advance 1).front isName
  let after := (k.advance 1).advance name.length
  if after.rest.head? = some '!' then
    (String.ofList ('!' :: name ++ ['!']), after.advance 1)
  else (String.ofList ('!' :: name), after)

/-- The tag between angles, from behind the opening one. -/
def verbatim? (k : Cursor) : Option (Token × Cursor) := do
  let (text, k) ← tagText? true k
  if text ≠ "" && k.rest.head? = some '>' then some (.tag "" text, k.advance 1) else none

/-- The tag that is a handle with a suffix, from its mark on. -/
def shorthand? (k : Cursor) : Option (Token × Cursor) := do
  let (name, after) := handle k
  if 1 < name.length && name.toList.getLast? = some '!' then
    let (suffix, after) ← tagText? false after
    if suffix = "" then none else some (.tag name suffix, after)
  else
    let (suffix, after) ← tagText? false (k.advance 1)
    return (if suffix = "" then .tag "" "!" else .tag "!" suffix, after)

/-- The tag in front, from its mark on, which has to end at white space. -/
def tag? (inFlow : Bool) (k : Cursor) : Option (Token × Cursor) := do
  let (t, k) ←
    if (k.advance 1).rest.head? = some '<' then verbatim? (k.advance 2) else shorthand? k
  if isEnd k.rest || (inFlow && k.rest.head? = some ',') then some (t, k) else none

/-! ### Directives -/

/-- The number in front. -/
def number? (k : Cursor) : Option (Nat × Cursor) :=
  let digits := k.front Number.Decimal.isDigit
  if digits = [] || 9 < digits.length then none
  else some (Number.Decimal.natural digits, k.advance digits.length)

/-- The version in front. -/
def version? (k : Cursor) : Option (Token × Cursor) := do
  let (major, k) ← number? k
  if k.rest.head? = some '.' then
    let (minor, k) ← number? (k.advance 1)
    return (.version major minor, k)
  else none

/-- The handle in front and its expansion. -/
def expansion? (k : Cursor) : Option (Token × Cursor) :=
  if k.rest.head? = some '!' then do
    let (name, k) := handle k
    if (name = "!" || (1 < name.length && name.toList.getLast? = some '!'))
        && k.rest.head?.any isBlank then
      let (text, k) ← tagText? true (k.skipWhile isBlank)
      if text ≠ "" && isEnd k.rest then some (.handle name text, k) else none
    else none
  else none

/-- The directive in front, with the line that it stands on, from its mark on. -/
def directive? (k : Cursor) : Option (Token × Cursor) := do
  let k := k.advance 1
  let name := k.front isName
  let k := k.advance name.length
  if name = [] || !isEnd k.rest then none
  else
    let content := k.skipWhile isBlank
    let (t, k) ←
      if name = "YAML".toList then version? content
      else if name = "TAG".toList then expansion? content
      else none
    let k := k.skipWhile isBlank
    let k := if k.rest.head? = some '#' then k.skipWhile (!isBreak ·) else k
    if k.rest.head?.all isBreak then some (t, k.advance 1) else none

end TokenGate.Yaml.Property

/-!
## The tokens of a text

A lexer goes through a text and collects its tokens. It knows the columns of the block collections
that are open, and for each open collection in brackets or braces, and for what is outside of them,
the place of a token that may turn out to be a key: that shows only at the colon behind it, which
has to stand on the same line and not more than 1024 characters on.
-/

namespace TokenGate.Yaml

/-- A token that may turn out to be the start of a key. -/
structure Candidate where
  /-- Whether it cannot be anything else. -/
  isRequired : Bool
  /-- The number of tokens in front of it. -/
  position : Nat
  /-- Where it starts. -/
  start : Cursor

/-- The state of reading tokens. -/
structure Lexer where
  cursor : Cursor
  tokens : Array Token
  /-- The column of the innermost open block collection; `-1` if there is none. -/
  indent : Int
  /-- The columns of the block collections around that. -/
  outer : List Int
  /-- Whether a key may start here. -/
  mayStartKey : Bool
  /-- The candidate for a key outside of brackets and braces, or in the innermost ones. -/
  candidate : Option Candidate
  /-- The candidates around that, one for each open pair of brackets or braces. -/
  suspended : List (Option Candidate)

namespace Lexer

/-- The start of a text. -/
def start (cs : List Char) : Lexer := ⟨.start cs, #[], -1, [], true, none, []⟩

/-- Whether brackets or braces are open. -/
def inFlow (l : Lexer) : Bool := !l.suspended.isEmpty

/-- One more token. -/
def push (l : Lexer) (t : Token) : Lexer := { l with tokens := l.tokens.push t }

/-- One more token, which takes so many characters. -/
def take (l : Lexer) (t : Token) (length : Nat) : Lexer :=
  { l.push t with cursor := l.cursor.advance length }

/-! ### Indentation -/

/-- Closes the block collections that are further in than a column. -/
def close (column : Int) : Int → List Int → Array Token → Int × List Int × Array Token
  | indent, [], tokens => (indent, [], tokens)
  | indent, around :: outer, tokens =>
    if column < indent then close column around outer (tokens.push .blockEnd)
    else (indent, around :: outer, tokens)

/-- Closes the block collections that a line at a column does not belong to. -/
def unroll (l : Lexer) (column : Int) : Lexer :=
  if l.inFlow then l
  else
    let (indent, outer, tokens) := close column l.indent l.outer l.tokens
    { l with indent := indent, outer := outer, tokens := tokens }

/-- Opens a block collection at a column, unless one is open there; its token goes to a position. -/
def roll (l : Lexer) (column : Nat) (t : Token) (position : Nat) : Lexer :=
  if !l.inFlow && l.indent < column then
    { l with
      indent := column
      outer := l.indent :: l.outer
      tokens := l.tokens.insertIdxIfInBounds position t }
  else l

/-! ### Candidates for keys -/

/-- Gives up a candidate; a required one cannot be. -/
def dropCandidate? (l : Lexer) : Option Lexer :=
  if l.candidate.any (·.isRequired) then none else some { l with candidate := none }

/-- Whether a candidate is too far back. -/
def isStale (k : Cursor) (c : Candidate) : Bool :=
  c.start.line < k.line || c.start.index + 1024 < k.index

/-- Gives up the candidates that are too far back. -/
def refresh? (l : Lexer) : Option Lexer :=
  let stale (c : Option Candidate) := c.any (isStale l.cursor)
  if (l.candidate :: l.suspended).any fun c => stale c && c.any (·.isRequired) then none
  else
    let keep (c : Option Candidate) := if stale c then none else c
    some { l with candidate := keep l.candidate, suspended := l.suspended.map keep }

/-- Notes that a key may start with the next token. -/
def noteCandidate? (l : Lexer) : Option Lexer :=
  if l.mayStartKey then do
    let l ← l.dropCandidate?
    let isRequired : Bool := !l.inFlow && l.indent = l.cursor.column
    return { l with candidate := some ⟨isRequired, l.tokens.size, l.cursor⟩ }
  else some l

/-! ### The parts of a text -/

/-- Skips white space and comments. -/
def skip (l : Lexer) : Nat → Lexer
  | 0 => l
  | fuel + 1 =>
    let k := l.cursor.skipWhile fun c => c = ' ' || (c = '\t' && (l.inFlow || !l.mayStartKey))
    let k := if k.rest.head? = some '#' then k.skipWhile (!isBreak ·) else k
    if k.rest.head?.any isBreak then
      skip { l with cursor := k.advance 1, mayStartKey := l.mayStartKey || !l.inFlow } fuel
    else { l with cursor := k }

/-- The end of a text. -/
def finish? (l : Lexer) : Option Lexer := do
  let l ← (l.unroll (-1)).dropCandidate?
  return l.push .streamEnd

/-- A directive. -/
def directive? (l : Lexer) : Option Lexer := do
  let l ← (l.unroll (-1)).dropCandidate?
  let (t, k) ← Property.directive? l.cursor
  return { l.push t with mayStartKey := false, cursor := k }

/-- The mark between documents. -/
def mark? (l : Lexer) (t : Token) : Option Lexer := do
  let l ← (l.unroll (-1)).dropCandidate?
  return { l.take t 3 with mayStartKey := false }

/-- An opening bracket or brace. -/
def openFlow? (l : Lexer) (t : Token) : Option Lexer := do
  let l ← l.noteCandidate?
  return { l.take t 1 with
    mayStartKey := true, candidate := none, suspended := l.candidate :: l.suspended }

/-- A closing bracket or brace. -/
def closeFlow? (l : Lexer) (t : Token) : Option Lexer := do
  let l ← l.dropCandidate?
  let l := { l.take t 1 with mayStartKey := false }
  return match l.suspended with
    | [] => l
    | c :: rest => { l with candidate := c, suspended := rest }

/-- A comma between the parts of a collection. -/
def comma? (l : Lexer) : Option Lexer := do
  let l ← l.dropCandidate?
  return { l.take .flowEntry 1 with mayStartKey := true }

/-- The dash in front of an item. -/
def dash? (l : Lexer) : Option Lexer := do
  if !l.inFlow && !l.mayStartKey then none
  else
    let l ← (l.roll l.cursor.column .blockSequenceStart l.tokens.size).dropCandidate?
    return { l.take .blockEntry 1 with mayStartKey := true }

/-- The question mark in front of a key. -/
def question? (l : Lexer) : Option Lexer := do
  if !l.inFlow && !l.mayStartKey then none
  else
    let l ← (l.roll l.cursor.column .blockMappingStart l.tokens.size).dropCandidate?
    return { l.take .key 1 with mayStartKey := !l.inFlow }

/-- The colon in front of a value, which makes a key of the candidate. -/
def colon? (l : Lexer) : Option Lexer :=
  match l.candidate with
  | some c =>
    let l := { l with
      tokens := l.tokens.insertIdxIfInBounds c.position .key
      candidate := none
      mayStartKey := false }
    some ((l.roll c.start.column .blockMappingStart c.position).take .value 1)
  | none =>
    if !l.inFlow && !l.mayStartKey then none
    else
      let l := l.roll l.cursor.column .blockMappingStart l.tokens.size
      some { l.take .value 1 with mayStartKey := !l.inFlow }

/-- A part that may be a key: what it is, where it ends, and whether a key may start behind it. -/
def content? (l : Lexer) (read : Cursor → Option (Token × Cursor × Bool)) : Option Lexer := do
  let l ← l.noteCandidate?
  let (t, k, mayStartKey) ← read l.cursor
  return { l.push t with cursor := k, mayStartKey := mayStartKey }

/-- An anchor or an alias. -/
def name? (l : Lexer) (t : String → Token) : Option Lexer :=
  l.content? fun k => (Property.name? (k.advance 1)).map fun (n, k) => (t n, k, false)

/-- A tag. -/
def tag? (l : Lexer) : Option Lexer :=
  l.content? fun k => (Property.tag? l.inFlow k).map fun (t, k) => (t, k, false)

/-- A quoted scalar. -/
def quoted? (l : Lexer) (read : Cursor → Option Quoted.Found) : Option Lexer :=
  l.content? fun k => (read (k.advance 1)).map fun q => (.scalar .marked q.text, q.after, false)

/-- A plain scalar. -/
def plain? (l : Lexer) : Option Lexer :=
  l.content? fun k =>
    (Plain.read? l.inFlow (l.indent + 1).toNat [] .none k).map fun p =>
      (.scalar .plain p.text, p.after, p.isBroken)

/-- A block scalar. -/
def block? (l : Lexer) (folded : Bool) : Option Lexer := do
  let l ← l.dropCandidate?
  let b ← Block.read? folded l.indent (l.cursor.advance 1)
  return { l.push (.scalar .marked b.text) with cursor := b.after, mayStartKey := true }

/-- Whether a plain scalar cannot start with a character. -/
def isIndicator (c : Char) : Bool := "-?:,[]\x7b\x7d#&*!|>'\"%@`".toList.contains c

/-- The next token, which starts with a character. -/
def next? (l : Lexer) (c : Char) (rest : List Char) : Option Lexer :=
  let isAlone := isEnd rest
  if c = '%' && l.cursor.column = 0 then l.directive?
  else if c = '-' && l.cursor.isAtMark then l.mark? .documentStart
  else if c = '.' && l.cursor.isAtMark then l.mark? .documentEnd
  else if c = '[' then l.openFlow? .flowSequenceStart
  else if c = '\x7b' then l.openFlow? .flowMappingStart
  else if c = ']' then l.closeFlow? .flowSequenceEnd
  else if c = '\x7d' then l.closeFlow? .flowMappingEnd
  else if c = ',' then l.comma?
  else if c = '-' && isAlone then l.dash?
  else if c = '?' && (l.inFlow || isAlone) then l.question?
  else if c = ':' && (l.inFlow || isAlone) then l.colon?
  else if c = '*' then l.name? .alias
  else if c = '&' then l.name? .anchor
  else if c = '!' then l.tag?
  else if c = '|' && !l.inFlow then l.block? false
  else if c = '>' && !l.inFlow then l.block? true
  else if c = '\'' then l.quoted? (Quoted.readSingle? [] .none)
  else if c = '"' then l.quoted? (Quoted.readDouble? [] .none)
  else if !(isBlank c || isBreak c || isIndicator c) || (c = '-' && !rest.head?.any isBlank)
      || (!l.inFlow && (c = '?' || c = ':') && !isAlone) then
    l.plain?
  else none

/-- All further tokens. -/
def run? : Nat → Lexer → Option Lexer
  | 0, _ => none
  | fuel + 1, l => do
    let l ← (l.skip (l.cursor.rest.length + 1)).refresh?
    let l := l.unroll l.cursor.column
    match l.cursor.rest with
    | [] => l.finish?
    | c :: rest => run? fuel (← l.next? c rest)

end Lexer

/-- The tokens of a text. -/
def tokens? (cs : List Char) : Option (List Token) := do
  let cs ← prepare? cs
  let l ← Lexer.run? (cs.length + 1) (.start cs)
  return l.tokens.toList

end TokenGate.Yaml
