import TokenGate.Json.Basic
import TokenGate.Json.Shape
import TokenGate.Json.Value
import TokenGate.Time.Reader
import TokenGate.Time.Timestamp

/-!
# Identities: who a request comes from

An identity is what authentication hands to the rest of the platform: the kind of principal, how it
was authenticated, and for a user the claims about it. The bearer token may travel with an identity,
so that it can be passed on to other services, but it is no part of what an identity says.
-/

/-! ## Facts and claims -/

namespace TokenGate

open TokenGate.Time (Timestamp)

/-- The kind of a principal. -/
inductive Identity.Kind
  /-- A person. -/
  | user
  /-- A machine. -/
  | service
  deriving DecidableEq, Repr, Inhabited

/-- The mechanism that authenticated a principal. -/
inductive Identity.Mechanism
  /-- An OpenID Connect bearer token. -/
  | oidc
  deriving DecidableEq, Repr, Inhabited

/-- How an identity was authenticated. -/
structure Identity.AuthInfo where
  mechanism : Identity.Mechanism
  /-- The name under which the mechanism knows the principal. -/
  principalId : String
  /-- When the credential stops being valid. -/
  expiration : Timestamp
  deriving DecidableEq, Inhabited

/-- What is claimed about a user. -/
structure User where
  email : String
  /-- The groups of the platform, each `group@domain`. -/
  groups : List String
  /-- When the credential expires, in seconds since 1970. -/
  expirationTime : Int64
  deriving DecidableEq, Repr, Inhabited

/-- An authenticated principal. -/
structure Identity where
  kind : Identity.Kind
  auth : Identity.AuthInfo
  user : Option User
  /-- The bearer token behind the identity. -/
  token : Option String
  deriving DecidableEq, Inhabited

/-- Whether a user belongs to a group. -/
def User.isMemberOf (u : User) (group : String) : Bool := u.groups.contains group

namespace Identity

/-- The identity of a user that OpenID Connect authenticated; the email is the principal. -/
def oidcUser (user : User) (expiration : Timestamp) : Identity :=
  ⟨.user, ⟨.oidc, user.email, expiration⟩, some user, none⟩

/-- The identity with a bearer token attached. -/
def withToken (i : Identity) (token : String) : Identity := { i with token := some token }

/-- The name of the principal. -/
def principalId (i : Identity) : String := i.auth.principalId

/-- The groups of the principal; an identity without claims has none. -/
def groups (i : Identity) : List String := (i.user.map User.groups).getD []

/-- Whether the credential has expired at an instant. The instant of expiry counts. -/
def isExpiredAt (i : Identity) (now : Timestamp) : Bool := i.auth.expiration.le now

/-- Whether the principal is a person. -/
def isUser (i : Identity) : Bool := i.kind = .user

end Identity

/-!
## Identities as JSON

The record of an identity has the members `type`, `auth` and, for an identity with claims, `user`.
The bearer token is never written and never read.
-/

open TokenGate.Json

/-! ### Names -/

/-- The names of the kinds of principal. -/
def Identity.Kind.names : List (String × Identity.Kind) := [("user", .user), ("service", .service)]

/-- The name of a kind of principal. -/
def Identity.Kind.name : Identity.Kind → String
  | .user => "user"
  | .service => "service"

/-- The names of the mechanisms. -/
def Identity.Mechanism.names : List (String × Identity.Mechanism) := [("oidc", .oidc)]

/-- The name of a mechanism. -/
def Identity.Mechanism.name : Identity.Mechanism → String
  | .oidc => "oidc"

/-! ### Writing -/

/-- The record of a user. -/
def User.toJson (u : User) : Json :=
  .object [("email", .string u.email), ("groups", .strings u.groups),
    ("expirationTime", .int u.expirationTime.toInt)]

/-- The record of how an identity was authenticated. -/
def Identity.AuthInfo.toJson (a : Identity.AuthInfo) : Json :=
  .object [("provider", .string a.mechanism.name), ("providerPrincipalId", .string a.principalId),
    ("expiration", .string a.expiration.render)]

/-- The record of an identity, without its token. -/
def Identity.toJson (i : Identity) : Json :=
  .object ([("type", .string i.kind.name), ("auth", i.auth.toJson)]
    ++ (i.user.map fun u => ("user", u.toJson)).toList)

/-- The text of an identity. -/
def Identity.render (i : Identity) : String := i.toJson.render

/-! ### Reading -/

/-- A timestamp in its written form. -/
def Time.Timestamp.shape : Shape Timestamp
  | .string s =>
    match Timestamp.ofText s with
    | .ok t => .ok t
    | .error f => .error (.unreadable f.message)
  | v => Shape.mismatch "an RFC 3339 formatted date and time string" v

/-- The record of a user. -/
def User.shape : Shape User :=
  Record.shape "User" default
    [ .needed "email" Shape.string fun s u => { u with email := s },
      .needed "groups" (Shape.list Shape.string) fun ss u => { u with groups := ss },
      .needed "expirationTime" Shape.int64 fun z u => { u with expirationTime := z } ]

/-- The record of how an identity was authenticated. -/
def Identity.AuthInfo.shape : Shape Identity.AuthInfo :=
  Record.shape "AuthInfo" default
    [ .needed "provider" (Shape.choice Identity.Mechanism.names) fun m a =>
        { a with mechanism := m },
      .needed "providerPrincipalId" Shape.string fun s a => { a with principalId := s },
      .needed "expiration" Timestamp.shape fun t a => { a with expiration := t } ]

/-- The record of an identity, which comes without a token. -/
def Identity.shape : Shape Identity :=
  Record.shape "Identity" default
    [ .needed "type" (Shape.choice Identity.Kind.names) fun k i => { i with kind := k },
      .needed "auth" Identity.AuthInfo.shape fun a i => { i with auth := a },
      .free "user" (Shape.optional User.shape) fun u i => { i with user := u } ]

/-- Reads the text of an identity. -/
def Identity.ofText (s : String) : Except Fault Identity := do
  let v ← (Json.ofText s).mapError .text
  (Identity.shape v).mapError .shape

end TokenGate
