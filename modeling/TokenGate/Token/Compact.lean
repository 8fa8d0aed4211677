import TokenGate.Json.Entry
import TokenGate.Key.Jwk
import TokenGate.Text.Basic
import TokenGate.Text.Octets
import TokenGate.Token.Fault

/-!
# Compact tokens: header, payload and signature

A compact token is three segments of base64url with dots between them. It is taken apart in two
ways. Looking for the payload alone takes the second segment from the left, whatever follows it.
Looking for all three parts splits from the right, so that any further dots stay in the header.
-/

/-! ## Segments -/

namespace TokenGate.Token

open TokenGate.Text

/-- Splits at the last dot. -/
def splitLast? : List Char → Option (List Char × List Char)
  | [] => none
  | c :: rest =>
    match splitLast? rest with
    | some (before, after) => some (c :: before, after)
    | none => if c = '.' then some ([], rest) else none

/-- The octets that a segment stands for. -/
def segmentBytes (s : List Char) : Except Base64Url.Fault (List UInt8) :=
  Base64Url.decode (Utf8.encodeChars s)

/-- The octets of the second segment from the left. -/
def payloadBytes? (token : String) : Option (List UInt8) :=
  match splitOn '.' token.toList with
  | _ :: payload :: _ => (segmentBytes payload).toOption
  | _ => none

/-- A token in three parts, none of them read yet. -/
structure Compact where
  header : List Char
  payload : List Char
  signature : List Char
  deriving DecidableEq, Repr

/-- The parts of a token, split from the right. -/
def Compact.ofToken? (token : String) : Option Compact := do
  let (message, signature) ← splitLast? token.toList
  let (header, payload) ← splitLast? message
  return ⟨header, payload, signature⟩

/-- The text that the signature is made for. -/
def Compact.signingInput (c : Compact) : List UInt8 :=
  Utf8.encodeChars (c.header ++ '.' :: c.payload)

/-!
## Headers: what a token says about its signature

The header is a record with a required algorithm and some known members; only the algorithm and the
key identifier are used. Every known member has a shape, which is checked in the order of the text,
and may stand once. Any other member has to be a string, which is checked after all known ones.
-/

open TokenGate.Json

/-- What a header says. -/
structure Header where
  algorithm : Algorithm
  /-- The identifier of the key. -/
  kid : Option String
  deriving DecidableEq, Repr, Inhabited

namespace Header

/-- An algorithm by its name, alone or as the only member of an object, where it has no content. -/
def algorithmShape : NodeShape Algorithm := fun depth n =>
  match n, depth with
  | .string l, _ => do
    let name ← NodeShape.text l.content
    NodeShape.shape (Shape.named Algorithm.names name)
  | .object _ _, 0 => .error (.text .tooDeep)
  | .object [] (some .endOfObject), _ => .error (.text .endOfValue)
  | .object [] _, _ => .error (.text .expectedValue)
  | .object ((key, content) :: more) stop, _ => do
    let name ← NodeShape.text key.content
    let a ← NodeShape.shape (Shape.named Algorithm.names name)
    match content with
    | .null =>
      match more, stop with
      | [], none => return a
      | [], some .endOfObject => .error (.text .endOfObject)
      | _, _ => .error (.text .expectedValue)
    | content => NodeShape.mismatch "unit" content
  | .broken f, _ => .error (.text f)
  | _, _ => .error (.text .expectedValue)

/-- The known members of a header. -/
def entries : List (Entry Header) :=
  let text (name : String) : Entry Header :=
    .free name (NodeShape.optional NodeShape.string) fun _ h => h
  let texts (name : String) : Entry Header :=
    .free name (NodeShape.optional (NodeShape.list NodeShape.string)) fun _ h => h
  [ text "typ",
    .needed "alg" algorithmShape fun a h => { h with algorithm := a },
    text "cty", text "jku",
    .free "jwk" (NodeShape.optional Key.Jwk.shape) fun _ h => h,
    .free "kid" (NodeShape.optional NodeShape.string) fun kid h => { h with kid := kid },
    text "x5u", texts "x5c", text "x5t", text "x5t#S256", texts "crit", text "enc", text "zip",
    text "url", text "nonce" ]

/-- A header as it is read: the known members so far, and the values of all others. -/
structure Draft where
  header : Header
  seen : List String
  others : List Json

/-- Reads the members of a header in the order of the text. -/
def setMembers (depth : Nat) : List (Literal × Node) → Draft → Except Json.Fault Draft
  | [], d => .ok d
  | (key, n) :: rest, d => do
    let name ← NodeShape.text key.content
    match entries.find? (·.name = name) with
    | some e =>
      if d.seen.contains name then .error (.shape (.duplicateField name))
      else
        let h ← e.set depth n d.header
        setMembers depth rest { d with header := h, seen := name :: d.seen }
    | none =>
      let v ← NodeShape.text (n.value depth)
      setMembers depth rest { d with others := d.others ++ [v] }

/-- The header of a tree. -/
def ofNode (depth : Nat) (n : Node) : Except Json.Fault Header :=
  match n, depth with
  | .object _ _, 0 => .error (.text .tooDeep)
  | .object ms stop, depth + 1 => do
    let d ← setMembers depth ms ⟨default, [], []⟩
    NodeShape.text (finish stop ())
    if d.seen.contains "alg" then
      let _ ← NodeShape.shape (d.others.mapM Shape.string)
      return d.header
    else .error (.shape (.missingField "alg"))
  | n, _ => NodeShape.mismatch "struct Header" n

/-- The header of a token. -/
def ofToken (token : String) : Except Fault Header :=
  match Compact.ofToken? token with
  | none => .error .invalidToken
  | some c =>
    match segmentBytes c.header with
    | .error f => .error (.base64 f)
    | .ok bytes => (readBytes ofNode bytes).mapError .json

end Header

/-!
## Peeking: the claims that a token makes before it is verified

The issuer and the audience of the payload select a provider and a candidate audience. They are not
trusted: the provider's verifier looks at the payload again. A token is malformed if it has fewer
than two segments, or if the second one is not base64url of a JSON record with an issuer that is a
string and an audience that is a string or a list of strings; both may be left out, and the audience
may be null, which is then reported on its own.
-/

/-- The claims that route a token. -/
structure Peek where
  /-- The issuer. -/
  issuer : String
  /-- The audience, as a list. -/
  audience : List String
  deriving DecidableEq, Repr, Inhabited

namespace Peek

/-- Why a token cannot be routed. -/
inductive Fault
  | malformed
  | missingIssuer
  | missingAudience
  deriving DecidableEq, Repr

/-- An audience: nobody, a single name, or a list of names. -/
def audienceShape : Shape (List String)
  | .null => .ok []
  | .string s => .ok [s]
  | .array items =>
    match items.mapM Json.asString? with
    | some names => .ok names
    | none => .error (.noMatchingVariant "StringOrVec")
  | _ => .error (.noMatchingVariant "StringOrVec")

/-- The members that route a token. -/
def entries : List (Entry Peek) :=
  [ .free "iss" NodeShape.string fun s p => { p with issuer := s },
    .free "aud" (NodeShape.ofValue audienceShape) fun ss p => { p with audience := ss } ]

/-- The claims of a payload, empty where they are left out. -/
def claims : NodeShape Peek := Entry.record "UnverifiedClaims" ⟨"", []⟩ entries

/-- The routing claims of a token. -/
def ofToken (token : String) : Except Fault Peek :=
  match payloadBytes? token with
  | none => .error .malformed
  | some bytes =>
    match readBytes claims bytes with
    | .error _ => .error .malformed
    | .ok p =>
      if p.issuer = "" then .error .missingIssuer
      else if p.audience = [] then .error .missingAudience
      else .ok p

end Peek

end TokenGate.Token
