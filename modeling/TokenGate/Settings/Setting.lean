import TokenGate.Number.Binary64
import TokenGate.Text.Basic

/-!
# Settings: the trees that configurations are read from

A setting is a scalar, a list or a table, and knows where it comes from. Settings come in layers. A
table over a table keeps the entries of both and settles those in both entry by entry; anything else
over anything replaces it as a whole. The entries of a table have distinct names in increasing
order.
-/

/-! ## Trees and layers -/

namespace TokenGate.Settings

/-- Where a setting comes from. -/
inductive Origin
  /-- A configuration file of this name. -/
  | file (name : String)
  /-- Variables of the environment. -/
  | environment
  deriving DecidableEq, Repr

/-- A setting without parts. -/
inductive Scalar
  /-- The lack of a value. -/
  | unit
  | bool (value : Bool)
  /-- An integer written without a sign that makes it negative. -/
  | natural (value : Nat)
  /-- An integer written with a minus sign. -/
  | integer (value : Int)
  | real (value : Number.Extended)
  | text (value : String)
  deriving DecidableEq, Repr

/-- A tree of settings. -/
inductive Setting
  | scalar (origin : Origin) (value : Scalar)
  | list (origin : Origin) (items : List Setting)
  | table (origin : Origin) (entries : List (String × Setting))

namespace Setting

/-- Where a setting comes from. -/
def origin : Setting → Origin
  | .scalar o _ => o
  | .list o _ => o
  | .table o _ => o

/-- The entry of a name. -/
def lookup? (name : String) : List (String × Setting) → Option Setting
  | [] => none
  | (n, s) :: rest => if n = name then some s else lookup? name rest

/-- Puts an entry in its place among names in increasing order; an earlier one of the name goes. -/
def put (name : String) (s : Setting) : List (String × Setting) → List (String × Setting)
  | [] => [(name, s)]
  | (n, t) :: rest =>
    if name = n then (name, s) :: rest
    else if name < n then (name, s) :: (n, t) :: rest
    else (n, t) :: put name s rest

mutual

/-- A setting under a later one. -/
def overlay (base : Setting) : Setting → Setting
  | .table o entries =>
    match base with
    | .table _ below => .table o (overlayEntries below entries)
    | _ => .table o entries
  | later => later

/-- Entries under later ones. -/
def overlayEntries (below : List (String × Setting)) :
    List (String × Setting) → List (String × Setting)
  | [] => below
  | (name, s) :: rest =>
    let s := match lookup? name below with
      | some b => overlay b s
      | none => s
    overlayEntries (put name s below) rest

end

/-- The tables that hold a setting at the end of a path. -/
def nest (o : Origin) (s : Setting) : List String → Setting
  | [] => s
  | name :: rest => .table o [(name, nest o s rest)]

end Setting

end TokenGate.Settings

/-!
## Inline settings: values in one line of text

A value is `true` or `false`, a text between double quotes, a character between single quotes, a
list `[a, b]`, a table `{k = v, l = w}`, or a bare word. A bare word ends at a comma, a bracket or a
brace; it is a number if it has a point and denotes one, an integer if it denotes one of 64 bits,
and a text otherwise. A text that is no value as a whole stands for itself.
-/

namespace TokenGate.Settings.Inline

open TokenGate.Number

/-- The blanks between the parts of a value. -/
def isGap (c : Char) : Bool :=
  c = ' ' || c = '\t' || c = '\n' || c = '\x0c' || c = '\r'

/-- Drops the blanks in front. -/
def skip (cs : List Char) : List Char := cs.dropWhile isGap

/-- Whether a character belongs to a bare word. -/
def isBare (c : Char) : Bool := !(c = ',' || c = '{' || c = '}' || c = '[' || c = ']')

/-- Whether a character belongs to the name of an entry. -/
def isName (c : Char) : Bool := c.isAlphanum || c = '_' || c = '-'

/-! ### Quoted texts -/

/-- The characters up to the closing quote, their escapes untouched, and what follows it. -/
def spanQuoted : List Char → Option (List Char × List Char)
  | [] => none
  | '"' :: rest => some ([], rest)
  | '\\' :: c :: rest => (spanQuoted rest).map fun (cs, after) => ('\\' :: c :: cs, after)
  | c :: rest => (spanQuoted rest).map fun (cs, after) => (c :: cs, after)

/-- The text that escapes stand for. -/
def unescape : List Char → Option (List Char)
  | [] => some []
  | '\\' :: 'u' :: a :: b :: c :: d :: rest => do
    return (← Text.Hexadecimal.character? [a, b, c, d]) :: (← unescape rest)
  | '\\' :: 'U' :: a :: b :: c :: d :: e :: f :: g :: h :: rest => do
    return (← Text.Hexadecimal.character? [a, b, c, d, e, f, g, h]) :: (← unescape rest)
  | '\\' :: e :: rest => do
    let c ← [('"', '"'), ('\\', '\\'), ('b', '\x08'), ('f', '\x0c'), ('n', '\n'), ('r', '\r'),
      ('t', '\t')].lookup e
    return c :: (← unescape rest)
  | ['\\'] => none
  | c :: rest => (unescape rest).map (c :: ·)

/-- The quoted text behind an opening quote, and what follows it. -/
def quoted? (cs : List Char) : Option (String × List Char) := do
  let (raw, rest) ← spanQuoted cs
  return (String.ofList (← unescape raw), rest)

/-! ### Bare words -/

/-- The integer of a word, if it fits into 64 bits. -/
def integer? (word : List Char) : Option Scalar :=
  let (negative, digits) := Decimal.splitSign word
  let n := Decimal.natural digits
  if digits.isEmpty || !digits.all Decimal.isDigit then none
  else if negative then if n ≤ 9223372036854775808 then some (.integer (-(n : Int))) else none
  else if n < 18446744073709551616 then some (.natural n) else none

/-- The value of a bare word. -/
def bare (word : List Char) : Scalar :=
  let number := if word.contains '.' then (Decimal.ofText? word).map Scalar.real else none
  (number.or (integer? word)).getD (.text (String.ofList word))

/-! ### Values -/

/-- The name of an entry, and what follows it. -/
def name? : List Char → Option (String × List Char)
  | '"' :: rest => quoted? rest
  | cs =>
    let name := cs.takeWhile isName
    if name = [] then none else some (String.ofList name, cs.dropWhile isName)

/-- A setting of the environment. -/
def scalar (s : Scalar) : Setting := .scalar .environment s

mutual

/-- The value in front, and what follows it and the blanks behind it. -/
def value? : Nat → List Char → Option (Setting × List Char)
  | 0, _ => none
  | fuel + 1, cs =>
    let found := match skip cs with
      | 't' :: 'r' :: 'u' :: 'e' :: rest => some (scalar (.bool true), rest)
      | 'f' :: 'a' :: 'l' :: 's' :: 'e' :: rest => some (scalar (.bool false), rest)
      | '\x7b' :: rest =>
        (entries? fuel [] rest).map fun (es, rest) => (.table .environment es, rest)
      | '[' :: rest => (items? fuel rest).map fun (vs, rest) => (.list .environment vs, rest)
      | '"' :: rest => (quoted? rest).map fun (s, rest) => (scalar (.text s), rest)
      | '\'' :: c :: '\'' :: rest => some (scalar (.text (String.singleton c)), rest)
      | '\'' :: _ => none
      | cs => some (scalar (bare (Text.trim (cs.takeWhile isBare))), cs.dropWhile isBare)
    found.map fun (s, rest) => (s, skip rest)

/-- The items up to the end of a list, and what follows it. -/
def items? : Nat → List Char → Option (List Setting × List Char)
  | 0, _ => none
  | _ + 1, ']' :: rest => some ([], rest)
  | fuel + 1, cs => do
    let (v, rest) ← value? fuel cs
    match rest with
    | ',' :: rest =>
      let (vs, rest) ← items? fuel rest
      return (v :: vs, rest)
    | ']' :: rest => return ([v], rest)
    | _ => none

/-- The entries up to the end of a table, put to those before, and what follows it. -/
def entries? : Nat → List (String × Setting) → List Char →
    Option (List (String × Setting) × List Char)
  | 0, _, _ => none
  | _ + 1, done, '\x7d' :: rest => some (done, rest)
  | fuel + 1, done, cs => do
    let (name, rest) ← name? (skip cs)
    match skip rest with
    | '=' :: rest =>
      let (v, rest) ← value? fuel rest
      let done := Setting.put name v done
      match rest with
      | ',' :: rest => entries? fuel done rest
      | '\x7d' :: rest => return (done, rest)
      | _ => none
    | _ => none

end

/-- The setting of a text. -/
def ofText (s : String) : Setting :=
  let cs := s.toList
  match value? (2 * cs.length + 2) cs with
  | some (v, []) => v
  | _ => scalar (.text s)

end TokenGate.Settings.Inline

/-!
## Variables: settings from the environment

A variable whose name starts with `ROR_AUTH_`, in any case, is a setting. The rest of its name is
the path of the setting: two underscores, or a point, lead from a table to its entry, and case does
not matter. A path with an empty part names nothing. Each variable is a layer over those before it.
-/

namespace TokenGate.Settings.Variable

/-- What the names of settings start with. -/
def mark : String := "ROR_AUTH_"

/-- The rest of a name behind the mark. -/
def afterMark? (name : List Char) : Option (List Char) :=
  if (name.take mark.length).map Char.toLower = mark.toList.map Char.toLower then
    some (name.drop mark.length)
  else none

/-- Replaces each pair of underscores by a point. -/
def pointed : List Char → List Char
  | '_' :: '_' :: rest => '.' :: pointed rest
  | c :: rest => c :: pointed rest
  | [] => []

/-- The path of the setting that a variable of this name gives. -/
def path? (name : String) : Option (List String) := do
  let rest ← afterMark? (Text.trim name.toList)
  let path := Text.splitOn '.' ((Text.trim (pointed rest)).map Char.toLower)
  if path.any List.isEmpty then none else some (path.map String.ofList)

/-- The table that a variable stands for. -/
def setting? (name value : String) : Option Setting :=
  (path? name).map (Setting.nest .environment (Inline.ofText value))

/-- The settings of an environment. -/
def ofEnvironment (environment : List (String × String)) : Setting :=
  environment.foldl (fun s (name, value) =>
    match setting? name value with
    | some t => s.overlay t
    | none => s) (.table .environment [])

end TokenGate.Settings.Variable
