import TokenGate.Json.Shape
import TokenGate.Text.Octets

/-!
# Algorithms and faults of tokens

What a token may be signed with, what may be wrong with a signed token, and what a verifier says of
a token that it refuses.
-/

/-!
## Signature algorithms

The twelve algorithms that the header of a token may name. Only those whose keys come in pairs can
vouch for a token of another party, and of them only the ones on RSA keys and on the curves P-256
and P-384 are accepted.
-/

namespace TokenGate.Token

/-- An algorithm that a header may name. -/
inductive Algorithm
  | hs256
  | hs384
  | hs512
  | es256
  | es384
  | rs256
  | rs384
  | rs512
  | ps256
  | ps384
  | ps512
  | edDsa
  deriving DecidableEq, Repr, Inhabited

namespace Algorithm

/-- The algorithms by their names. -/
def names : List (String × Algorithm) :=
  [("HS256", .hs256), ("HS384", .hs384), ("HS512", .hs512), ("ES256", .es256), ("ES384", .es384),
    ("RS256", .rs256), ("RS384", .rs384), ("RS512", .rs512), ("PS256", .ps256), ("PS384", .ps384),
    ("PS512", .ps512), ("EdDSA", .edDsa)]

/-- The name of an algorithm. -/
def name : Algorithm → String
  | .hs256 => "HS256"
  | .hs384 => "HS384"
  | .hs512 => "HS512"
  | .es256 => "ES256"
  | .es384 => "ES384"
  | .rs256 => "RS256"
  | .rs384 => "RS384"
  | .rs512 => "RS512"
  | .ps256 => "PS256"
  | .ps384 => "PS384"
  | .ps512 => "PS512"
  | .edDsa => "EdDSA"

/-- Whether tokens of a provider may be signed with an algorithm. -/
def isAllowed : Algorithm → Bool
  | .rs256 | .rs384 | .rs512 | .ps256 | .ps384 | .ps512 | .es256 | .es384 => true
  | .hs256 | .hs384 | .hs512 | .edDsa => false

end Algorithm

/-!
## Token faults: why a signed token is not what it claims

The ways in which the parts of a token, its key, its signature or its registered claims can be
wrong.
-/

/-- What is wrong with a signed token or with the key that it names. -/
inductive Fault
  | invalidToken
  | invalidSignature
  | invalidEcdsaKey
  | invalidEddsaKey
  | invalidRsaKey (reason : String)
  | failedRsaSigning
  | failedSigning (reason : String)
  | invalidAlgorithmName
  | invalidKeyFormat
  | missingRequiredClaim (name : String)
  | invalidClaimFormat (name : String)
  | expiredSignature
  | invalidIssuer
  | invalidAudience
  | invalidSubject
  | immatureSignature
  | invalidAlgorithm
  | missingAlgorithm
  | base64 (fault : Text.Base64Url.Fault)
  | json (fault : Json.Fault)
  | utf8 (fault : Text.Utf8.Fault)
  | provider (reason : String)
  deriving DecidableEq, Repr

/-- The wording of a fault. -/
def Fault.message : Fault → String
  | .invalidToken => "InvalidToken"
  | .invalidSignature => "InvalidSignature"
  | .invalidEcdsaKey => "InvalidEcdsaKey"
  | .invalidEddsaKey => "InvalidEddsaKey"
  | .invalidRsaKey r => s!"RSA key invalid: {r}"
  | .failedRsaSigning => "RsaFailedSigning"
  | .failedSigning r => s!"Signing failed: {r}"
  | .invalidAlgorithmName => "InvalidAlgorithmName"
  | .invalidKeyFormat => "InvalidKeyFormat"
  | .missingRequiredClaim n => s!"Missing required claim: {n}"
  | .invalidClaimFormat n => s!"Invalid format for claim: {n}"
  | .expiredSignature => "ExpiredSignature"
  | .invalidIssuer => "InvalidIssuer"
  | .invalidAudience => "InvalidAudience"
  | .invalidSubject => "InvalidSubject"
  | .immatureSignature => "ImmatureSignature"
  | .invalidAlgorithm => "InvalidAlgorithm"
  | .missingAlgorithm => "MissingAlgorithm"
  | .base64 f => s!"Base64 error: {f.message}"
  | .json f => s!"JSON error: {f.message}"
  | .utf8 f => s!"UTF-8 error: {f.message}"
  | .provider r => s!"Custom provider error: {r}"

end TokenGate.Token

/-!
## Verification faults: why a verifier refuses a token

These are diagnostics for the operator and are never shown to a caller. The faults of a signed token
fall into five groups: three have a meaning of their own (expired, not yet valid, wrong issuer or
audience), algorithms that are not known, texts that cannot be read, and everything else, which
counts as a bad signature.
-/

namespace TokenGate

/-- Why a verifier refuses a token. -/
inductive VerifyFault
  | expired
  | notYetValid
  | invalidSignature (reason : String)
  | invalidIssuer
  | invalidAudience
  | unsupportedAlgorithm (name : String)
  /-- The token names no key, and the key set has several. -/
  | missingKeyId
  | unknownKeyId (kid : String)
  /-- The key set cannot be fetched. -/
  | keyFetch (reason : String)
  | malformed (reason : String)
  deriving DecidableEq, Repr

namespace VerifyFault

/-- The wording of a refusal. -/
def message : VerifyFault → String
  | .expired => "token expired"
  | .notYetValid => "token not yet valid"
  | .invalidSignature r => s!"invalid signature: {r}"
  | .invalidIssuer => "issuer mismatch"
  | .invalidAudience => "audience mismatch"
  | .unsupportedAlgorithm n => s!"unsupported JWT algorithm: {n}"
  | .missingKeyId => "JWT missing 'kid' field in header"
  | .unknownKeyId k => s!"unknown key ID: {k}"
  | .keyFetch r => s!"JWKS fetch error: {r}"
  | .malformed r => s!"malformed token: {r}"

/-- The refusal that a fault of a signed token leads to. -/
def ofToken (f : Token.Fault) : VerifyFault :=
  match f with
  | .expiredSignature => .expired
  | .immatureSignature => .notYetValid
  | .invalidIssuer => .invalidIssuer
  | .invalidAudience => .invalidAudience
  | .invalidAlgorithm | .invalidAlgorithmName => .unsupportedAlgorithm f.message
  | .invalidToken | .base64 _ | .json _ | .utf8 _ | .missingRequiredClaim _ => .malformed f.message
  | _ => .invalidSignature f.message

end VerifyFault

end TokenGate
