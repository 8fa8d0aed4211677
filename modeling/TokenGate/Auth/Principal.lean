import TokenGate.Identity.Codec
import TokenGate.Json.Shape
import TokenGate.Token.Compact
import TokenGate.Token.Fault

/-!
# Principals and rejections

What becomes of a request that is authenticated, and of one that is not.
-/

/-!
## Rejections: why a request is not authenticated

Every rejection is answered with the status 401. The caller sees a code and a public message, which
name the kind of rejection and nothing else: no issuer, no key and nothing that a verifier said. The
full wording is for the log.
-/

namespace TokenGate

/-- Why a request is rejected. -/
inductive Rejection
  | missingAuthHeader
  | notBearerScheme
  | malformedToken
  | missingIssuer
  | missingAudience
  /-- No provider is registered for the issuer. -/
  | unknownIssuer (issuer : String)
  /-- The provider accepts none of the token's audiences. -/
  | audienceMismatch (issuer : String)
  | signatureInvalid (reason : String)
  | tokenExpired
  | tokenNotYetValid
  | verificationTimeout
  /-- The verified claims describe no principal. -/
  | claimsDecodeError (reason : String)
  | invalidEmailFormat
  | noGroupsResolved
  deriving DecidableEq, Repr

namespace Rejection

/-- The full wording, for the log. -/
def message : Rejection → String
  | .missingAuthHeader => "missing Authorization header"
  | .notBearerScheme => "Authorization header is not a Bearer credential"
  | .malformedToken => "malformed token"
  | .missingIssuer => "token has no issuer"
  | .missingAudience => "token has no audience"
  | .unknownIssuer i => s!"unknown issuer {i}"
  | .audienceMismatch i => s!"no accepted audience for issuer {i}"
  | .signatureInvalid r => s!"token verification failed: {r}"
  | .tokenExpired => "token expired"
  | .tokenNotYetValid => "token not yet valid"
  | .verificationTimeout => "token verification timed out"
  | .claimsDecodeError r => s!"cannot decode token claims: {r}"
  | .invalidEmailFormat => "invalid email format"
  | .noGroupsResolved => "no groups resolved for principal"

/-- The stable code of a rejection. -/
def code : Rejection → String
  | .missingAuthHeader => "missing_auth_header"
  | .notBearerScheme => "not_bearer_scheme"
  | .malformedToken => "malformed_token"
  | .missingIssuer => "missing_issuer"
  | .missingAudience => "missing_audience"
  | .unknownIssuer _ => "unknown_issuer"
  | .audienceMismatch _ => "audience_mismatch"
  | .signatureInvalid _ => "signature_invalid"
  | .tokenExpired => "token_expired"
  | .tokenNotYetValid => "token_not_yet_valid"
  | .verificationTimeout => "verification_timeout"
  | .claimsDecodeError _ => "claims_decode_error"
  | .invalidEmailFormat => "invalid_email_format"
  | .noGroupsResolved => "no_groups_resolved"

/-- The message that a caller sees. -/
def publicMessage : Rejection → String
  | .missingAuthHeader => "Missing Authorization header. Use: Authorization: Bearer <token>"
  | .notBearerScheme => "Authorization header must use the Bearer scheme"
  | .malformedToken | .missingIssuer | .missingAudience => "Malformed bearer token"
  | .unknownIssuer _ | .audienceMismatch _ => "Token was not issued for this service"
  | .signatureInvalid _ | .verificationTimeout => "Invalid token"
  | .tokenExpired => "Token expired"
  | .tokenNotYetValid => "Token not yet valid"
  | .claimsDecodeError _ | .invalidEmailFormat => "Token does not identify a valid principal"
  | .noGroupsResolved => "Principal has no groups"

/-- The status of the answer to a rejected request. -/
def status (_ : Rejection) : Nat := 401

/-- The rejection of a token that cannot be routed. -/
def ofPeek : Token.Peek.Fault → Rejection
  | .malformed => .malformedToken
  | .missingIssuer => .missingIssuer
  | .missingAudience => .missingAudience

/-- The rejection of a token that its verifier refuses. -/
def ofVerify (f : VerifyFault) : Rejection :=
  match f with
  | .expired => .tokenExpired
  | .notYetValid => .tokenNotYetValid
  | _ => .signatureInvalid f.message

end Rejection

end TokenGate

/-!
## Groups: group names of a provider as groups of the platform

A provider's group `devs` of the principal `alice@example.com` is the group `devs@example.com` of
the platform. An email address has exactly one `@`, and something behind it.
-/

namespace TokenGate.Groups

/-- What stands before and after the first `@`. -/
def splitAt? : List Char → Option (List Char × List Char)
  | [] => none
  | c :: rest =>
    if c = '@' then some ([], rest)
    else (splitAt? rest).map fun (before, after) => (c :: before, after)

/-- The domain of an email address. -/
def emailDomain (email : String) : Except Rejection String :=
  match splitAt? email.toList with
  | some (_, domain) =>
    if domain = [] ∨ '@' ∈ domain then .error .invalidEmailFormat
    else .ok (String.ofList domain)
  | none => .error .invalidEmailFormat

/-- The platform's groups of a principal, in the order of the provider's; there is at least one. -/
def resolve (email : String) (native : List String) : Except Rejection (List String) := do
  let domain ← emailDomain email
  if native = [] then .error .noGroupsResolved
  else return native.map fun group => group ++ "@" ++ domain

end TokenGate.Groups

/-!
## Principals: verified claims as an identity

A principal has an email address, groups of the provider and an expiry. The claims are read as a
record, the expiry has to be an instant of the calendar, and the groups become groups of the
platform.
-/

namespace TokenGate

open TokenGate.Json

/-- The claims that describe a principal. -/
structure Principal where
  email : String
  groups : List String
  exp : Int64
  deriving DecidableEq, Repr, Inhabited

namespace Principal

/-- The members that describe a principal; groups may be left out. -/
def fields : List (Member Principal) :=
  [ .needed "email" Shape.string fun s p => { p with email := s },
    .free "groups" (Shape.list Shape.string) fun ss p => { p with groups := ss },
    .needed "exp" Shape.int64 fun z p => { p with exp := z } ]

/-- Reads the claims. -/
def shape : Shape Principal := Record.shape "PrincipalClaims" default fields

/-- The identity of a principal. -/
def identity (p : Principal) : Except Rejection Identity :=
  match Time.Timestamp.ofUnix? p.exp.toInt 0 with
  | none => .error (.claimsDecodeError s!"exp out of range: {p.exp.toInt}")
  | some expiration => do
    let groups ← Groups.resolve p.email p.groups
    return Identity.oidcUser ⟨p.email, groups, p.exp⟩ expiration

/-- The identity that verified claims describe. -/
def identify (claims : Json) : Except Rejection Identity :=
  match shape claims with
  | .error f => .error (.claimsDecodeError f.message)
  | .ok p => p.identity

end Principal

end TokenGate
