import TokenGate.Auth.Gate
import TokenGate.Identity.Codec
import TokenGate.Provider.Registry
import TokenGate.Settings.Config
import TokenGate.Url.Address

/-!
# The service

How the service starts, and what it answers.
-/

/-!
## The router: what the service answers

There are two routes, the health of the service and the identity of the caller. Both can be read;
any other method is answered with the methods there are. The gate stands in front of the routes and
of everything that is no route, so that a request without a credential is rejected with one status
whether or not its path exists. The methods of a route are named on a rejection as well.
-/

namespace TokenGate

open TokenGate.Http

/-- An answer of the service. -/
structure Response where
  status : Nat
  headers : List (String × String)
  body : String
  deriving DecidableEq, Repr

namespace Server

/-- The version of the service. -/
def version : String := "0.4.0"

/-- The routes of the service. -/
inductive Route
  | health
  | whoami
  deriving DecidableEq, Repr

/-- The route of a path. -/
def route? (path : String) : Option Route :=
  if path = "/health" then some .health
  else if path = "/v1/whoami" then some .whoami
  else none

/-- Whether a method reads. -/
def isRead (method : String) : Bool := method = "GET" || method = "HEAD"

/-- An answer that is JSON. -/
def jsonResponse (status : Nat) (headers : List (String × String)) (v : Json) : Response :=
  ⟨status, headers ++ [("content-type", "application/json")], v.render⟩

/-- The answer to a rejected request, which depends on the kind of the rejection only. -/
def unauthorized (f : Rejection) : Response :=
  jsonResponse f.status [("www-authenticate", "Bearer")]
    (.object [("error", .string f.code), ("message", .string f.publicMessage),
      ("status", .int f.status)])

/-- The health of a service with a number of providers. -/
def health (providers : Nat) : Response :=
  jsonResponse 200 []
    (.object [("providers", .int providers), ("status", .string "healthy"),
      ("version", .string version)])

/-- What the caller sees whose identity nobody established. -/
def missingIdentity : String :=
  "Missing request extension: Extension of type `ror_identity::Identity` was not found. "
    ++ "Perhaps you forgot to add it? See `axum::Extension`."

/-- The identity of the caller. -/
def whoami : Option Identity → Response
  | some i => jsonResponse 200 [] i.toJson
  | none => ⟨500, [("content-type", "text/plain; charset=utf-8")], missingIdentity⟩

/-- The answer of a route to a request that passed the gate. -/
def dispatch (providers : Nat) (method path : String) (identity : Option Identity) : Response :=
  match route? path with
  | none => ⟨404, [], ""⟩
  | some route =>
    if !isRead method then ⟨405, [], ""⟩
    else match route with
      | .health => health providers
      | .whoami => whoami identity

/-- Names the methods of a route to a request with another, and leaves out the body for `HEAD`. -/
def finish (method path : String) (a : Response) : Response :=
  let a := if (route? path).isSome && !isRead method then
    { a with headers := a.headers ++ [("allow", "GET,HEAD")] } else a
  if method = "HEAD" then { a with body := "" } else a

/-- What handling a request does. -/
structure Handling where
  response : Response
  registry : Registry
  exchanges : List Exchange
  events : List Journal.Event

/-- Handles a request behind a gate. What is behind the gate answers a request that passes; it sees
the registry as the gate leaves it, the request, and the identity that the gate establishes. -/
def guarded (g : Gate) (inner : Registry → Request → Option Identity → Response) (r : Registry)
    (clock : Clock) (net : Network) (q : Request) : Handling :=
  let p := g.judge r clock net q
  let response := match p.decision with
    | .pass identity => inner p.registry q identity
    | .refuse f => unauthorized f
  ⟨response, p.registry, p.exchanges, p.events⟩

/-- The gate of a configuration. -/
def gate (c : Config) : Gate := ⟨c.auth.publicPaths, c.auth.verificationTimeout.toNat * 1000⟩

/-- Handles a request. -/
def handle (c : Config) (r : Registry) (clock : Clock) (net : Network) (q : Request) : Handling :=
  let routes := fun r q identity => dispatch r.size q.method q.path identity
  let h := guarded (gate c) routes r clock net q
  { h with response := finish q.method q.path h.response }

end Server

/-!
## The start of the service

A service is ready once the registry of its configuration is loaded. It listens on the address of
its configuration, which has to be an IP address as such: four decimal numbers, or eight pieces of
16 bits with colons between them, of which a row of zeros may be left out.
-/

namespace Server

/-- Whether a text is an IPv4 address. -/
def isIpv4 (cs : List Char) : Bool :=
  match (Text.splitOn '.' cs).mapM Url.Ipv6.octet? with
  | some [_, _, _, _] => true
  | _ => false

/-- Whether a text is an IP address. -/
def isAddress (host : String) : Bool :=
  isIpv4 host.toList || (Url.Ipv6.ofText? host.toList).isSome

/-- Says what keeps a service from listening on the address of a configuration. -/
def checkAddress (c : Config) : Except ServiceFault Unit :=
  if isAddress c.server.host then .ok ()
  else .error (.config "Invalid host: invalid IP address syntax")

/-- Makes a service ready: loads its registry. -/
def start (net : Network) (c : Config) : Load.Outcome := loadProviders c.auth.client net c.auth

end Server

end TokenGate
