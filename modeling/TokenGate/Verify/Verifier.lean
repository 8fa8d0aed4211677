import TokenGate.Json.Basic
import TokenGate.Key.Cache
import TokenGate.Provider.Config
import TokenGate.Token.Claims
import TokenGate.Token.Fault

/-!
# Verifiers

A verifier decides about a token for one audience. The usual one belongs to a provider: it has the
provider's issuer, trust mode and key cache. It reads the header, refuses algorithms without key
pairs, looks the key up, and checks signature and claims; without signatures it only checks the
claims. A verifier may also be given as a function of the token and the audience, which may never
come to an end.

What a verification does is its reaction: the verdict and when it comes, if ever, and the verifier
afterwards.
-/

/-!
## Registered claims of an unsigned token

Where signatures go unchecked, the claims are checked as they stand in the payload: an integer
expiry, an integer not-before if there is one, the issuer, and the audience as a string or a list.
Times and tolerance are integers of 64 bits, and a bound that would leave them stays at their end.
-/

namespace TokenGate.Verify

/-- The greatest integer of 64 bits. -/
def maxInt64 : Int := 9223372036854775807

/-- The least integer of 64 bits. -/
def minInt64 : Int := -9223372036854775808

/-- An integer kept within 64 bits. -/
def saturate (z : Int) : Int := max minInt64 (min maxInt64 z)

/-- The tolerance as an integer with a sign. -/
def tolerance (leeway : UInt64) : Int := saturate leeway.toNat

/-- Whether an audience names somebody. -/
def namesAudience (aud : Option Json) (name : String) : Bool :=
  match aud with
  | some (.string s) => s = name
  | some (.array items) => items.any fun v => v.asString? = some name
  | _ => false

/-- Checks the claims of an unsigned token, in order. -/
def checkRegistered (claims : Json) (issuer audience : String) (leeway : UInt64) (now : Int64) :
    Except VerifyFault Unit :=
  match (claims.get? "exp").bind Json.asInt64? with
  | none => .error (.malformed "missing or non-integer exp")
  | some exp =>
    if exp < saturate (now.toInt - tolerance leeway) then .error .expired
    else
      let rest : Except VerifyFault Unit :=
        if (claims.get? "iss").bind Json.asString? ≠ some issuer then .error .invalidIssuer
        else if !namesAudience (claims.get? "aud") audience then .error .invalidAudience
        else .ok ()
      match claims.get? "nbf" with
      | none => rest
      | some v =>
        match v.asInt64? with
        | none => .error (.malformed "non-integer nbf")
        | some nbf =>
          if saturate (now.toInt + tolerance leeway) < nbf then .error .notYetValid else rest

end TokenGate.Verify

/-! ## Verifiers -/

namespace TokenGate

open TokenGate.Http TokenGate.Token

/-- The clocks that a verification looks at. -/
structure Clock where
  /-- The time of the wall clock, in seconds since 1970. -/
  wall : Int64
  /-- The time of a clock that is never set, in milliseconds. -/
  steady : Nat
  deriving DecidableEq, Repr

/-- The clocks after some seconds. -/
def Clock.advance (c : Clock) (seconds : Nat) : Clock :=
  ⟨c.wall + Int64.ofNat seconds, c.steady + seconds * 1000⟩

/-- The verifier of a provider with published keys. -/
structure KeyVerifier where
  issuer : String
  trustMode : TrustMode
  /-- The tolerance for the issuer's clock, in seconds. -/
  leeway : UInt64
  keys : Key.Cache
  deriving DecidableEq

/-- When a verdict comes. -/
inductive Delay
  | after (milliseconds : Nat)
  | never
  deriving DecidableEq, Repr

/-- What a verification does. -/
structure Reaction where
  verdict : Except VerifyFault Json
  delay : Delay
  exchanges : List Exchange

namespace KeyVerifier

/-- What the registered claims of a token are held against. -/
def expectation (v : KeyVerifier) (audience : String) (now : Int64) : Claims.Expectation :=
  ⟨v.issuer, audience, v.leeway.toNat, now.toInt⟩

/-- The claims of a token whose signature goes unchecked. -/
def verifyUnsigned (v : KeyVerifier) (now : Int64) (token audience : String) :
    Except VerifyFault Json :=
  match (payloadBytes? token).bind fun bytes => (Json.ofBytes bytes).toOption with
  | none => .error (.malformed "payload is not base64url JSON")
  | some claims => do
    Verify.checkRegistered claims v.issuer audience v.leeway now
    return claims

/-- The header of a token, if its algorithm is allowed. -/
def readHeader (token : String) : Except VerifyFault Header := do
  let h ← (Header.ofToken token).mapError .ofToken
  if h.algorithm.isAllowed then return h else .error (.unsupportedAlgorithm h.algorithm.name)

/-- Verifies a token for an audience. -/
def verify (v : KeyVerifier) (clock : Clock) (net : Network) (token audience : String) :
    Reaction × KeyVerifier :=
  if v.trustMode.skipsSignature then
    (⟨v.verifyUnsigned clock.wall token audience, .after 0, []⟩, v)
  else
    match readHeader token with
    | .error f => (⟨.error f, .after 0, []⟩, v)
    | .ok h =>
      let l := v.keys.lookup clock.steady net h.kid
      let verdict := l.result.bind fun key =>
        (verifySigned token h.algorithm key (v.expectation audience clock.wall)).mapError .ofToken
      (⟨verdict, .after l.elapsed, l.exchanges⟩, { v with keys := l.cache })

end KeyVerifier

/-- A verifier of a provider. -/
inductive Verifier
  | keys (verifier : KeyVerifier)
  /-- A verifier given as a function of the token and the audience. -/
  | given (react : String → String → Delay × Except VerifyFault Json)

/-- Verifies a token for an audience. -/
def Verifier.verify (clock : Clock) (net : Network) (token audience : String) :
    Verifier → Reaction × Verifier
  | .keys v =>
    let (r, v) := v.verify clock net token audience
    (r, .keys v)
  | .given react =>
    let (delay, verdict) := react token audience
    (⟨verdict, delay, []⟩, .given react)

end TokenGate
