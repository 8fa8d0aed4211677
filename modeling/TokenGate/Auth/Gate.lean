import TokenGate.Auth.Principal
import TokenGate.Identity.Codec
import TokenGate.Journal.Event
import TokenGate.Json.Basic
import TokenGate.Provider.Registry

/-!
# The gate: which requests reach a handler

A request to a public path passes without being looked at. Any other request passes with the
identity of its bearer token, or it is rejected. The first authorization counts; one that holds an
octet outside printable ASCII and the tab carries no bearer token. Every request that is looked at
leaves one audit record, and a rejected one leaves a warning before it.
-/

/-!
## Authentication: from a bearer token to an identity

The claimed issuer picks the provider, and the claimed audience picks the one that the provider's
verifier is asked about. The verifier has to come to a verdict before the time limit; otherwise its
work is lost, as if it had never begun. Verified claims become an identity with the token attached.
Every step may reject, and no verifier is asked before the steps in front of it have passed.
-/

namespace TokenGate

open TokenGate.Http TokenGate.Token

/-- What authenticating a token does. -/
structure Authentication where
  result : Except Rejection Identity
  /-- The issuer that the token claims, if the token can be read. -/
  issuer : Option String
  /-- The registry afterwards, whose verifiers may have fetched keys. -/
  registry : Registry
  exchanges : List Exchange
  /-- The provider that was asked, and the audience it was asked about. -/
  asked : Option (String × String)

namespace Authentication

/-- The credential behind the `Bearer` of an authorization. -/
def extractBearer : Option String → Except Rejection String
  | none => .error .missingAuthHeader
  | some header =>
    if "Bearer ".toList.isPrefixOf header.toList then .ok (String.ofList (header.toList.drop 7))
    else .error .notBearerScheme

/-- Whether a verdict comes in time. A verdict that takes no time always does. -/
def inTime (limit : Nat) : Delay → Bool
  | .after 0 => true
  | .after n => n < limit
  | .never => false

/-- An authentication that ends before a verifier is asked. -/
def reject (r : Registry) (issuer : Option String) (f : Rejection) : Authentication :=
  ⟨.error f, issuer, r, [], none⟩

/-- Asks a provider, found under a key, about a token and an audience. -/
def ask (r : Registry) (key : String) (p : Provider) (limit : Nat) (clock : Clock) (net : Network)
    (token audience : String) : Authentication :=
  let (reaction, verifier) := p.verifier.verify clock net token audience
  let asked := some (p.issuer, audience)
  if inTime limit reaction.delay then
    let result := (reaction.verdict.mapError Rejection.ofVerify).bind fun claims =>
      (Principal.identify claims).map (·.withToken token)
    ⟨result, some key, r.insert key { p with verifier := verifier }, reaction.exchanges, asked⟩
  else ⟨.error .verificationTimeout, some key, r, reaction.exchanges, asked⟩

end Authentication

open Authentication in
/-- Authenticates a token within a time limit in milliseconds. -/
def Registry.authenticate (r : Registry) (limit : Nat) (clock : Clock) (net : Network)
    (token : String) : Authentication :=
  match Peek.ofToken token with
  | .error f => reject r none (.ofPeek f)
  | .ok peek =>
    match r.get? peek.issuer with
    | none => reject r (some peek.issuer) (.unknownIssuer peek.issuer)
    | some p =>
      match p.matchAudience peek.audience with
      | none => reject r (some peek.issuer) (.audienceMismatch peek.issuer)
      | some audience => ask r peek.issuer p limit clock net token audience

/-- Authenticates the value of an authorization header. -/
def Registry.authenticateHeader (r : Registry) (limit : Nat) (clock : Clock) (net : Network)
    (header : Option String) : Authentication :=
  match Authentication.extractBearer header with
  | .error f => Authentication.reject r none f
  | .ok token => r.authenticate limit clock net token

/-!
## Audit records

Every attempt to authenticate leaves one record: who came, from which issuer and with which groups,
or why the request was rejected. A record never holds a token.
-/

/-- The record of an attempt to authenticate. -/
structure Audit where
  event : String
  principal : Option String
  /-- The issuer that the token claims. -/
  issuer : Option String
  groups : Option (List String)
  /-- The code of the rejection. -/
  reason : Option String
  path : String
  deriving DecidableEq, Repr

namespace Audit

/-- The record of an identity. -/
def authenticated (i : Identity) (issuer : Option String) (path : String) : Audit :=
  ⟨"auth.authenticated", some i.principalId, issuer, some i.groups, none, path⟩

/-- The record of a rejection. -/
def rejected (r : Rejection) (issuer : Option String) (path : String) : Audit :=
  ⟨"auth.rejected", none, issuer, none, some r.code, path⟩

/-- A member that may be missing. -/
def member (name : String) (value : Option Json) : List (String × Json) :=
  (value.map fun v => (name, v)).toList

/-- The record as JSON; what is missing is left out. -/
def toJson (a : Audit) : Json :=
  .object (("event", .string a.event) :: member "principal" (a.principal.map .string)
    ++ member "issuer" (a.issuer.map .string) ++ member "groups" (a.groups.map Json.strings)
    ++ member "reason" (a.reason.map .string) ++ [("path", .string a.path)])

/-- The text of a record. -/
def render (a : Audit) : String := a.toJson.render

/-- The line that a record leaves in the journal. -/
def note (a : Audit) : Journal.Event := .audit a.render

end Audit

/-! ## Requests -/

/-- A request to the service. -/
structure Request where
  method : String
  /-- The path, or a whole URL, with an optional query. -/
  target : String
  /-- The values of the authorization header, in order. -/
  authorizations : List (List UInt8)
  deriving DecidableEq, Repr

namespace Request

/-- What stands behind a double slash, if there is one. -/
def afterDoubleSlash? : List Char → Option (List Char)
  | '/' :: '/' :: rest => some rest
  | _ :: rest => afterDoubleSlash? rest
  | [] => none

/-- The path of a target without query and fragment. -/
def pathChars (target : List Char) : List Char :=
  let cs := target.takeWhile fun c => c ≠ '?' && c ≠ '#'
  if cs.head? = some '/' || cs = ['*'] then cs
  else
    match afterDoubleSlash? cs with
    | some rest =>
      match rest.dropWhile (· ≠ '/') with
      | [] => ['/']
      | path => path
    | none => []

/-- The path of a request, as it is written. -/
def path (r : Request) : String := String.ofList (pathChars r.target.toList)

/-- Whether an octet may stand in a header that is read as text. -/
def isPlain (b : UInt8) : Bool := (0x20 ≤ b && b < 0x7F) || b = 0x09

/-- The bearer token of a request. -/
def bearer (r : Request) : Except Rejection String :=
  match r.authorizations with
  | [] => Authentication.extractBearer none
  | value :: _ =>
    if value.all isPlain then
      Authentication.extractBearer (some (String.ofList (value.map fun b => Char.ofNat b.toNat)))
    else .error .notBearerScheme

end Request

/-- The gate of a service. -/
structure Gate where
  /-- The prefixes of the paths that need no authentication. -/
  publicPaths : List String
  /-- The limit for verifying one token, in milliseconds. -/
  limit : Nat
  deriving DecidableEq, Repr

/-- What the gate does with a request. -/
inductive Gate.Decision
  /-- The request passes; without an identity if its path is public. -/
  | pass (identity : Option Identity)
  | refuse (rejection : Rejection)
  deriving DecidableEq

/-- What happens at the gate. -/
structure Gate.Passage where
  decision : Gate.Decision
  registry : Registry
  exchanges : List Exchange
  events : List Journal.Event

namespace Gate

/-- Whether a path needs no authentication. -/
def isPublic (g : Gate) (path : String) : Bool :=
  g.publicPaths.any fun p => p.toList.isPrefixOf path.toList

/-- Authenticates the bearer token of a request. -/
def authenticate (g : Gate) (r : Registry) (clock : Clock) (net : Network) (q : Request) :
    Authentication :=
  match q.bearer with
  | .error f => Authentication.reject r none f
  | .ok token => r.authenticate g.limit clock net token

/-- Lets a request pass or rejects it. -/
def judge (g : Gate) (r : Registry) (clock : Clock) (net : Network) (q : Request) : Passage :=
  if g.isPublic q.path then ⟨.pass none, r, [], []⟩
  else
    let a := g.authenticate r clock net q
    match a.result with
    | .ok i =>
      ⟨.pass (some i), a.registry, a.exchanges, [(Audit.authenticated i a.issuer q.path).note]⟩
    | .error f =>
      ⟨.refuse f, a.registry, a.exchanges,
        [.rejected f.code f.message q.path, (Audit.rejected f a.issuer q.path).note]⟩

end Gate

end TokenGate
