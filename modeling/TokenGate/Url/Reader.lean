import TokenGate.Url.Address
import TokenGate.Url.Domain

/-!
# URLs and how they are read

The parts of a URL, its text, and the reading of a text, by itself or on the page of another URL.
-/

/-!
## URLs

A URL has a scheme and, unless its path is opaque, an optional host with an optional port and a path
of segments; a query and a fragment may follow. A port that is the usual one of the scheme is left
out. Names and passwords in front of a host are no part of a URL here: a request does not show them.
-/

namespace TokenGate

/-- The host of a URL. -/
inductive Url.Host
  | domain (name : List Char)
  | ipv4 (address : Nat)
  | ipv6 (pieces : List Nat)
  deriving DecidableEq, Repr

/-- What stands between the scheme and the query. -/
inductive Url.Hierarchy
  /-- A path without segments and without a host, as in `mailto:`. -/
  | opaquePath (chars : List Char)
  /-- A path of segments, with or without a host. -/
  | path (host : Option Url.Host) (port : Option Nat) (segments : List (List Char))
  deriving DecidableEq, Repr

/-- A URL. -/
structure Url where
  scheme : List Char
  hierarchy : Url.Hierarchy
  query : Option (List Char)
  fragment : Option (List Char)
  deriving DecidableEq, Repr

namespace Url

/-- The kinds of schemes. -/
inductive Kind
  /-- A scheme with a host, as those of the web. -/
  | special
  /-- The scheme of local files. -/
  | file
  | other
  deriving DecidableEq

/-- The usual ports of the special schemes. -/
def usualPorts : List (List Char × Nat) :=
  [(['h', 't', 't', 'p'], 80), (['h', 't', 't', 'p', 's'], 443), (['w', 's'], 80),
    (['w', 's', 's'], 443), (['f', 't', 'p'], 21)]

/-- The kind of a scheme. -/
def kind (scheme : List Char) : Kind :=
  if scheme = ['f', 'i', 'l', 'e'] then .file
  else if (usualPorts.lookup scheme).isSome then .special
  else .other

/-- Whether a URL is one of the web. -/
def isWeb (u : Url) : Bool :=
  u.scheme = ['h', 't', 't', 'p'] || u.scheme = ['h', 't', 't', 'p', 's']

/-! ### Printing -/

/-- The text of a host. -/
def Host.chars : Host → List Char
  | .domain name => name
  | .ipv4 a => Ipv4.render a
  | .ipv6 ps => '[' :: Ipv6.render ps ++ [']']

/-- A path of segments. -/
def pathChars (segments : List (List Char)) : List Char := segments.flatMap ('/' :: ·)

/-- The text of what stands between the scheme and the query. -/
def Hierarchy.chars : Hierarchy → List Char
  | .opaquePath cs => cs
  | .path (some host) port segments =>
    ['/', '/'] ++ host.chars ++ (port.map fun n => ':' :: (Nat.repr n).toList).getD []
      ++ pathChars segments
  | .path none _ segments =>
    (if segments.length > 1 && segments.head? = some [] then ['/', '.'] else [])
      ++ pathChars segments

/-- The text of a URL. -/
def chars (u : Url) : List Char :=
  u.scheme ++ ':' :: u.hierarchy.chars ++ (u.query.map ('?' :: ·)).getD []
    ++ (u.fragment.map ('#' :: ·)).getD []

/-- The text of a URL. -/
def render (u : Url) : String := String.ofList u.chars

/-- Whether a request can name the host of a URL: some characters are no part of an address. -/
def isAddressable (u : Url) : Bool :=
  match u.hierarchy with
  | .path (some (.domain name)) _ _ => name.all fun c => !"\"`\x7b\x7d".toList.contains c
  | _ => true

end Url

/-!
## Read URLs

A text is read as browsers do: blanks and control characters at its ends and tabs and line breaks
anywhere are dropped, letters of the scheme are made small, and special schemes take a backslash for
a slash and any number of slashes in front of the host. Segments `.` and `..` of a path are
resolved, also when their dots are escaped. A reference on a page of the web is read against the URL
of the page, from which it takes what it does not say itself.
-/

namespace Url.Reader

/-- Drops control characters and blanks from the ends of a text, and tabs and breaks from all of it.
-/
def clean (cs : List Char) : List Char :=
  let strip := List.dropWhile fun c : Char => c.toNat ≤ 0x20
  (strip (strip cs).reverse).reverse.filter fun c => c ∉ ['\t', '\n', '\r']

/-- A letter of ASCII. -/
def isLetter (c : Char) : Bool := ('a' ≤ c && c ≤ 'z') || ('A' ≤ c && c ≤ 'Z')

/-- A figure of ASCII. -/
def isFigure (c : Char) : Bool := '0' ≤ c && c ≤ '9'

/-- A scheme in small letters, and what follows its colon. -/
def splitScheme? : List Char → Option (List Char × List Char)
  | [] => none
  | c :: rest =>
    if isLetter c then
      let name := (c :: rest).takeWhile fun c => isLetter c || isFigure c || c ∈ ['+', '-', '.']
      match (c :: rest).drop name.length with
      | ':' :: after => some (name.map Char.toLower, after)
      | _ => none
    else none

/-- Splits off the fragment. -/
def splitFragment (cs : List Char) : List Char × Option (List Char) :=
  let before := cs.takeWhile (· ≠ '#')
  match cs.drop before.length with
  | _ :: after => (before, some after)
  | [] => (before, none)

/-- Splits off the query. -/
def splitQuery (cs : List Char) : List Char × Option (List Char) :=
  let before := cs.takeWhile (· ≠ '?')
  match cs.drop before.length with
  | _ :: after => (before, some after)
  | [] => (before, none)

/-- Whether a character is a slash for a kind of scheme. -/
def isSlash (k : Kind) (c : Char) : Bool := c = '/' || (c = '\\' && k ≠ .other)

/-! ### Paths -/

/-- The parts of a path between slashes. -/
def splitPath (k : Kind) : List Char → List (List Char)
  | [] => [[]]
  | c :: rest =>
    if isSlash k c then [] :: splitPath k rest
    else match splitPath k rest with
      | [] => [[c]]
      | part :: more => (c :: part) :: more

/-- A segment with its escaped dots resolved. -/
def plainDots : List Char → List Char
  | '%' :: '2' :: 'e' :: rest | '%' :: '2' :: 'E' :: rest => '.' :: plainDots rest
  | c :: rest => c :: plainDots rest
  | [] => []

/-- Resolves the segments of a path; `done` are those in place, the last one first. -/
def resolve (done : List (List Char)) : List (List Char) → List (List Char)
  | [] => done.reverse
  | s :: rest =>
    if plainDots s = ['.', '.'] then
      resolve (if rest = [] then [] :: done.tail else done.tail) rest
    else if plainDots s = ['.'] then
      resolve (if rest = [] then [] :: done else done) rest
    else resolve (s :: done) rest

/-- The segments of a path. -/
def segments (k : Kind) (cs : List Char) : List (List Char) :=
  (resolve [] (splitPath k cs)).map (Percent.encode Percent.path)

/-- The segments of a path that begins behind the last slash of another. -/
def segmentsFrom (base : List (List Char)) (k : Kind) (cs : List Char) : List (List Char) :=
  (resolve base.dropLast.reverse (splitPath k cs)).map (Percent.encode Percent.path)

/-! ### Hosts -/

/-- Splits off everything up to the last `@`, if there is one. -/
def splitUserInfo (cs : List Char) : Option (List Char) × List Char :=
  let after := (cs.reverse.takeWhile (· ≠ '@')).reverse
  if after.length = cs.length then (none, cs)
  else (some (cs.take (cs.length - after.length - 1)), after)

/-- Splits at the first colon outside brackets. -/
def splitPort (inside : Bool) : List Char → List Char × Option (List Char)
  | [] => ([], none)
  | c :: rest =>
    if c = ':' && !inside then ([], some rest)
    else
      let inside := if c = '[' then true else if c = ']' then false else inside
      let (host, port) := splitPort inside rest
      (c :: host, port)

/-- The host of a special scheme or a file. -/
def host (cs : List Char) : Except Fault Host :=
  match cs with
  | '[' :: rest =>
    if rest.getLast? = some ']' then
      match Ipv6.ofText? rest.dropLast with
      | some ps => .ok (.ipv6 ps)
      | none => .error .invalidIpv6
    else .error .invalidIpv6
  | cs => do
    let name ← Domain.ofText cs
    if name = [] then .error .emptyHost
    else if Ipv4.isExpected name then return .ipv4 (← Ipv4.ofHost name)
    else return .domain name

/-- The characters that belong to no host of any scheme. -/
def isForbidden (c : Char) : Bool :=
  c ∈ ['\x00', ' ', '#', '/', ':', '<', '>', '?', '@', '[', '\\', ']', '^', '|']

/-- The host of another scheme, which is taken as it is. -/
def opaqueHost (cs : List Char) : Except Fault Host :=
  match cs with
  | '[' :: _ => host cs
  | cs =>
    if cs.any isForbidden then .error .invalidDomainCharacter
    else .ok (.domain (Percent.encode Percent.controls cs))

/-- The number of a port; none if it is left out or the usual one. -/
def port (scheme : List Char) (cs : List Char) : Except Fault (Option Nat) :=
  match cs.foldlM (fun n c =>
      if isFigure c then
        let n := n * 10 + (c.toNat - 0x30)
        if n ≤ 65535 then some n else none
      else none) 0 with
  | none => .error .invalidPort
  | some n => .ok (if cs = [] ∨ usualPorts.lookup scheme = some n then none else some n)

/-- The host and the port of a text in front of the path. -/
def authority (scheme : List Char) (cs : List Char) : Except Fault (Option Host × Option Nat) := do
  let (user, cs) := splitUserInfo cs
  let (name, portText) := splitPort false cs
  if name = [] then
    if kind scheme ≠ .other || portText.isSome || (user.getD []) ≠ [] then .error .emptyHost
    else return (some (.domain []), none)
  else
    let h ← if kind scheme = .other then opaqueHost name else host name
    let p ← port scheme (portText.getD [])
    return (some h, p)

/-! ### Whole URLs -/

/-- A URL with a host, from the text behind the slashes. -/
def withHost (scheme : List Char) (cs : List Char) : Except Fault Hierarchy := do
  let k := kind scheme
  let front := cs.takeWhile fun c => !isSlash k c
  let (h, p) ← authority scheme front
  match cs.drop front.length with
  | [] => return .path h p (if k = .other then [] else [[]])
  | _ :: path => return .path h p (segments k path)

/-- Whether a segment names a drive. -/
def isDrive : List Char → Bool
  | [c, d] => isLetter c && (d = ':' || d = '|')
  | _ => false

/-- The URL of a local file; the host of this machine is left out. -/
def file (cs : List Char) : Except Fault Hierarchy := do
  match cs with
  | a :: b :: rest =>
    if isSlash .file a && isSlash .file b then
      let front := rest.takeWhile fun c => !isSlash .file c
      if isDrive front then return .path (some (.domain [])) none (segments .file rest)
      else
        let name ←
          if front = [] then .ok (.domain [])
          else host front
        let name := if name = .domain ['l', 'o', 'c', 'a', 'l', 'h', 'o', 's', 't'] then
            .domain [] else name
        return .path (some name) none (segments .file (rest.drop (front.length + 1)))
    else if isSlash .file a then
      return .path (some (.domain [])) none (segments .file (b :: rest))
    else return .path (some (.domain [])) none (segments .file cs)
  | [a] =>
    return .path (some (.domain [])) none (segments .file (if isSlash .file a then [] else [a]))
  | [] => return .path (some (.domain [])) none [[]]

/-- What stands between the scheme and the query. -/
def readHierarchy (scheme : List Char) (cs : List Char) : Except Fault Hierarchy :=
  match kind scheme with
  | .special => withHost scheme (cs.dropWhile (isSlash .special))
  | .file => file cs
  | .other =>
    match cs with
    | '/' :: '/' :: rest => withHost scheme rest
    | '/' :: rest => .ok (.path none none (segments .other rest))
    | cs => .ok (.opaquePath (Percent.encode Percent.controls cs))

/-- What stands between the scheme and the query, from a reference on a page of the web. -/
def readReference (scheme : List Char) (h : Option Host) (p : Option Nat)
    (base : List (List Char)) (cs : List Char) : Except Fault Hierarchy :=
  match cs with
  | [] => .ok (.path h p base)
  | c :: rest =>
    if !isSlash .special c then .ok (.path h p (segmentsFrom base .special cs))
    else if rest.head?.any (isSlash .special) then readHierarchy scheme cs
    else .ok (.path h p (segments .special rest))

end Url.Reader

open Url.Reader in
/-- Reads a URL. -/
def Url.ofText (text : String) : Except Url.Fault Url := do
  match splitScheme? (clean text.toList) with
  | none => .error .relative
  | some (scheme, cs) =>
    let (cs, fragment) := splitFragment cs
    let (cs, query) := splitQuery cs
    let h ← readHierarchy scheme cs
    let reserved := if Url.kind scheme = .other then Url.Percent.query else Url.Percent.specialQuery
    return ⟨scheme, h, query.map (Url.Percent.encode reserved),
      fragment.map (Url.Percent.encode Url.Percent.fragment)⟩

open Url.Reader in
/-- Reads a reference on a page of the web. One that names the scheme of the page, but no host,
takes the host of the page all the same. -/
def Url.join (page : Url) (text : String) : Except Url.Fault Url := do
  let cs := clean text.toList
  let reference :=
    match splitScheme? cs with
    | none => some cs
    | some (scheme, after) => if scheme = page.scheme then some after else none
  match page.hierarchy, reference with
  | .path h p segments, some cs =>
    let (cs, fragment) := splitFragment cs
    let (cs, query) := splitQuery cs
    let hierarchy ← readReference page.scheme h p segments cs
    let query :=
      if cs = [] ∧ query = none then page.query
      else query.map (Url.Percent.encode Url.Percent.specialQuery)
    return ⟨page.scheme, hierarchy, query,
      fragment.map (Url.Percent.encode Url.Percent.fragment)⟩
  | _, _ => Url.ofText text

end TokenGate
