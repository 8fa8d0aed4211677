import TokenGate.Json.Entry
import TokenGate.Key.Jwk
import TokenGate.Token.Compact
import TokenGate.Token.Fault

/-!
# Registered claims of a signed token

The claims that decide about a signed token are read from its payload a second time, as a record of
five members, each of which may be left out, be readable or be of another kind. Times are naturals
of 64 bits, or binary64 numbers that round to one. An issuer or an audience is a string or a list of
strings; null counts as left out there. The subject is read and not used.

Of a member that cannot be read, the reader may have taken in only the beginning, and then the text
does not go on as it should: that is so for a time that is a container with content and for a
subject that is any container.
-/

/-! ## Registered claims -/

namespace TokenGate.Token

open TokenGate.Json

/-- A member that may be left out or be of another kind. -/
inductive Claim (α : Type)
  | absent
  | readable (value : α)
  | unreadable
  deriving DecidableEq, Repr

/-- The registered claims. -/
structure Claims where
  exp : Claim Nat
  nbf : Claim Nat
  iss : Claim (List String)
  aud : Claim (List String)
  deriving DecidableEq, Repr

namespace Claims

/-- The time of a number. -/
def time : Number → Claim Nat
  | .int z => if 0 ≤ z then .readable z.toNat else .unreadable
  | .float x =>
    let (a, b) := x.ratio
    if (x.negative && !x.isZero) || 18446744073709551616 * b ≤ a then .unreadable
    else .readable x.roundToNat

/-- A time; `left` is the fault of a text that does not go on behind it. -/
def timeShape (left : TextFault) : NodeShape (Claim Nat) := fun _ n =>
  match n with
  | .number (.ok n) => .ok (time n)
  | .array (_ :: _) _ | .object (_ :: _) _ => .error (.text left)
  | .broken f | .number (.error f) | .array [] (some f) | .object [] (some f) => .error (.text f)
  | .string l => do
    let _ ← NodeShape.text l.content
    return .unreadable
  | .null | .bool _ | .array [] none | .object [] none => .ok .unreadable

/-- A subject, which is not used. -/
def subjectShape (left : TextFault) : NodeShape Unit := fun _ n =>
  match n with
  | .array _ _ | .object _ _ => .error (.text left)
  | .broken f | .number (.error f) => .error (.text f)
  | .string l => do
    let _ ← NodeShape.text l.content
    return ()
  | .null | .bool _ | .number (.ok _) => .ok ()

/-- The names of a value: one, or a list of them. -/
def names : Json → Claim (List String)
  | .null => .absent
  | .string s => .readable [s]
  | .array items =>
    match items.mapM Json.asString? with
    | some ss => .readable ss
    | none => .unreadable
  | _ => .unreadable

/-- One name or a list of them. -/
def namesShape : NodeShape (Claim (List String)) := NodeShape.ofValue fun v => .ok (names v)

/-- The members of the record; `needed` says whether all but the times have to be there. -/
def entries (needed : Bool) (left : TextFault) : List (Entry Claims) :=
  [ .free "exp" (timeShape left) fun t c => { c with exp := t },
    .free "nbf" (timeShape left) fun t c => { c with nbf := t },
    { Entry.free "sub" (subjectShape left) fun _ c => c with required := needed },
    { Entry.free "iss" namesShape fun ns c => { c with iss := ns } with required := needed },
    { Entry.free "aud" namesShape fun ns c => { c with aud := ns } with required := needed } ]

/-- The registered claims of a payload. -/
def shape : NodeShape Claims := fun depth n =>
  let none_ : Claims := ⟨.absent, .absent, .absent, .absent⟩
  let type := "ClaimsForValidation"
  match n with
  | .array _ _ => Entry.record type none_ (entries true .expectedListCommaOrEnd) depth n
  | n => Entry.record type none_ (entries false .expectedObjectCommaOrEnd) depth n

/-- What the registered claims are held against. -/
structure Expectation where
  issuer : String
  audience : String
  /-- The tolerance in seconds. -/
  leeway : Nat
  /-- The time in seconds since 1970. -/
  now : Int

/-- The earliest time at which a token may expire. The difference has 64 bits and goes around below
zero. -/
def Expectation.earliest (e : Expectation) : Int :=
  if e.leeway ≤ e.now then e.now - e.leeway else e.now - e.leeway + 18446744073709551616

/-- The latest time from which on a token may be valid. The sum has 64 bits and goes around beyond
them. -/
def Expectation.latest (e : Expectation) : Int :=
  if e.now + e.leeway < 18446744073709551616 then e.now + e.leeway
  else e.now + e.leeway - 18446744073709551616

theorem Expectation.sub_le_earliest (e : Expectation) : e.now - e.leeway ≤ e.earliest := by
  unfold Expectation.earliest
  split <;> omega

theorem Expectation.latest_le_add (e : Expectation) : e.latest ≤ e.now + e.leeway := by
  unfold Expectation.latest
  split <;> omega

/-- Neither time goes around. -/
structure Expectation.Exact (e : Expectation) : Prop where
  leeway_le : e.leeway ≤ e.now
  add_lt : e.now + e.leeway < 18446744073709551616

theorem Expectation.Exact.earliest_eq {e : Expectation} (h : e.Exact) :
    e.earliest = e.now - e.leeway := if_pos h.leeway_le

theorem Expectation.Exact.latest_eq {e : Expectation} (h : e.Exact) :
    e.latest = e.now + e.leeway := if_pos h.add_lt

/-- Whether a claim that can be read lacks a name. -/
def lacks (c : Claim (List String)) (name : String) : Bool :=
  match c with
  | .readable names => !names.contains name
  | _ => false

/-- Whether a claim is there and cannot be read. -/
def isUnreadable {α : Type} : Claim α → Bool
  | .unreadable => true
  | _ => false

/-- Whether a time that can be read is before another. -/
def isBefore (c : Claim Nat) (t : Int) : Bool :=
  match c with
  | .readable n => n < t
  | _ => false

/-- Whether a time that can be read is after another. -/
def isAfter (c : Claim Nat) (t : Int) : Bool :=
  match c with
  | .readable n => t < n
  | _ => false

/-- Whether a claim can be read. -/
def isReadable {α : Type} : Claim α → Bool
  | .readable _ => true
  | _ => false

/-- Checks the claims in order; issuer and audience pass unless they can be read and differ. -/
def check (c : Claims) (e : Expectation) : Except Fault Unit :=
  if !isReadable c.exp then .error (.missingRequiredClaim "exp")
  else if isUnreadable c.nbf then .error (.invalidClaimFormat "nbf")
  else if isBefore c.exp e.earliest then .error .expiredSignature
  else if isAfter c.nbf e.latest then .error .immatureSignature
  else if lacks c.iss e.issuer then .error .invalidIssuer
  else if lacks c.aud e.audience then .error .invalidAudience
  else .ok ()

end Claims

/-!
## Signed tokens

A signed token is checked in a fixed order: the key against the algorithm, the signature, the
payload as a value, and last its registered claims.
-/

/-- Checks the signature of a token, first that the key is one for the algorithm. -/
def checkSignature (c : Compact) (a : Algorithm) (k : Key.VerifyingKey) : Except Fault Unit :=
  if !k.fits a then .error .invalidKeyFormat
  else
    match segmentBytes c.signature with
    | .error f => .error (.base64 f)
    | .ok signature =>
      if k.verifies a c.signingInput signature then .ok () else .error .invalidSignature

/-- The claims of a payload, once the registered ones hold. -/
def readClaims (payload : List UInt8) (e : Claims.Expectation) : Except Fault Json := do
  let value ← (Json.ofBytes payload).mapError fun f => .json (.text f)
  let claims ← (readBytes Claims.shape payload).mapError .json
  claims.check e
  return value

/-- The claims of a token that is signed with a key. -/
def verifySigned (token : String) (a : Algorithm) (k : Key.VerifyingKey) (e : Claims.Expectation) :
    Except Fault Json := do
  match Compact.ofToken? token with
  | none => .error .invalidToken
  | some c =>
    checkSignature c a k
    let payload ← (segmentBytes c.payload).mapError .base64
    readClaims payload e

end TokenGate.Token
