import TokenGate.Crypto.Signature
import TokenGate.Json.Entry
import TokenGate.Token.Fault

/-!
# Keys

The records in which a provider publishes its keys, and the keys that signatures are checked with.
-/

/-!
## Key records: the keys that a provider publishes

A key record has some common members, of which only the key's identifier counts here, and the
parameters of one of four families. It is read from all its members at once: first the common ones,
then the parameters, which are those of the first family that fits. What a key may be used for is
read, but nobody is held to it.
-/

namespace TokenGate.Key

open TokenGate.Json

/-- The parameters of a key, as they are written. -/
inductive Parameters
  | ellipticCurve (x y : String)
  | rsa (n e : String)
  /-- A shared secret. -/
  | octet (k : String)
  /-- A key of a curve that is not used for verification here. -/
  | octetPair (x : String)
  deriving DecidableEq, Repr

/-- A published key. -/
structure Jwk where
  /-- The identifier of the key. -/
  kid : Option String
  parameters : Parameters
  deriving DecidableEq, Repr

/-- A published set of keys. -/
structure JwkSet where
  keys : List Jwk
  deriving DecidableEq, Repr

namespace Jwk

/-- The uses and operations of a key, and its algorithm: any name will do. -/
def anyName : Shape Unit
  | .string _ => .ok ()
  | .object [(_, .null)] => .ok ()
  | .object [(_, v)] => Shape.mismatch "unit" v
  | .object _ => .error .notSingleKey
  | v => Shape.mismatch "string or map" v

/-- The common members of a key record. -/
def commonFields : List (Member (Option String)) :=
  [ .free "use" (Shape.optional Shape.string) fun _ k => k,
    .free "key_ops" (Shape.optional (Shape.list Shape.string)) fun _ k => k,
    .free "alg" (Shape.optional anyName) fun _ k => k,
    .free "kid" (Shape.optional Shape.string) fun kid _ => kid,
    .free "x5u" (Shape.optional Shape.string) fun _ k => k,
    .free "x5c" (Shape.optional (Shape.list Shape.string)) fun _ k => k,
    .free "x5t" (Shape.optional Shape.string) fun _ k => k,
    .free "x5t#S256" (Shape.optional Shape.string) fun _ k => k ]

/-- The curves that a record may name. -/
def curves : List (String × Unit) := [("P-256", ()), ("P-384", ()), ("P-521", ()), ("Ed25519", ())]

/-- The member that names a family. -/
def familyField {α : Type} (family : String) : Member α :=
  .needed "kty" (Shape.choice [(family, ())]) fun _ a => a

/-- The member that names a curve. -/
def curveField {α : Type} : Member α := .needed "crv" (Shape.choice curves) fun _ a => a

/-- The parameters of a key on an elliptic curve. -/
def ellipticCurve? (members : List (String × Json)) : Except ShapeFault Parameters := do
  let (x, y) ← Record.ofMembers ("", "")
    [familyField "EC", curveField,
      .needed "x" Shape.string fun s p => (s, p.2), .needed "y" Shape.string fun s p => (p.1, s)]
    members
  return .ellipticCurve x y

/-- The parameters of an RSA key. -/
def rsa? (members : List (String × Json)) : Except ShapeFault Parameters := do
  let (n, e) ← Record.ofMembers ("", "")
    [familyField "RSA", .needed "n" Shape.string fun s p => (s, p.2),
      .needed "e" Shape.string fun s p => (p.1, s)]
    members
  return .rsa n e

/-- The parameters of a shared secret. -/
def octet? (members : List (String × Json)) : Except ShapeFault Parameters := do
  let k ← Record.ofMembers "" [familyField "oct", .needed "k" Shape.string fun s _ => s] members
  return .octet k

/-- The parameters of a key of another curve. -/
def octetPair? (members : List (String × Json)) : Except ShapeFault Parameters := do
  let x ← Record.ofMembers ""
    [familyField "OKP", curveField, .needed "x" Shape.string fun s _ => s] members
  return .octetPair x

/-- The parameters of the first family that fits. -/
def parameters? (members : List (String × Json)) : Except ShapeFault Parameters :=
  match ellipticCurve? members, rsa? members, octet? members, octetPair? members with
  | .ok p, _, _, _ | .error _, .ok p, _, _ | .error _, .error _, .ok p, _
  | .error _, .error _, .error _, .ok p => .ok p
  | _, _, _, _ => .error (.noMatchingVariant "AlgorithmParameters")

/-- The members that are left for the parameters. -/
def withoutCommon (members : List (String × Json)) : List (String × Json) :=
  members.filter fun (name, _) => !commonFields.any (·.name = name)

/-- A key from the members of its record. -/
def ofMembers (members : List (String × Json)) : Except ShapeFault Jwk := do
  let kid ← Record.ofMembers none commonFields members
  let parameters ← parameters? (withoutCommon members)
  return ⟨kid, parameters⟩

/-- A key record in a text. -/
def shape : NodeShape Jwk := fun depth n =>
  match n, depth with
  | .object _ _, 0 => .error (.text .tooDeep)
  | .object ms stop, depth + 1 => do
    let members ← NodeShape.text (Node.memberValues depth ms)
    NodeShape.text (finish stop ())
    NodeShape.shape (ofMembers members)
  | n, _ => NodeShape.mismatch "struct Jwk" n

end Jwk

/-- A set of keys in a text. -/
def JwkSet.shape : NodeShape JwkSet :=
  Entry.record "JwkSet" ⟨[]⟩
    [ .needed "keys" (NodeShape.list Jwk.shape) fun keys _ => ⟨keys⟩ ]

/-!
## Verifying keys: what signatures are checked with

Only a key that comes in a pair can check the signature of another party: an RSA key or a point of
an elliptic curve, whose parameters are base64url. An algorithm belongs to one of these two
families; the curve is the one that the algorithm names, whatever the key record says.
-/

open TokenGate.Text TokenGate.Token

/-- A key that checks signatures. -/
inductive VerifyingKey
  | rsa (modulus exponent : List UInt8)
  /-- The octet `04` and the coordinates of a point. -/
  | ellipticCurve (point : List UInt8)
  deriving DecidableEq, Repr

/-- The octets of a parameter. -/
def parameterBytes? (s : String) : Option (List UInt8) :=
  (Base64Url.decode (Utf8.encode s)).toOption

/-- The key of some parameters, if they make one. -/
def Parameters.toKey? : Parameters → Option VerifyingKey
  | .rsa n e => do
    let n ← parameterBytes? n
    let e ← parameterBytes? e
    return .rsa n e
  | .ellipticCurve x y => do
    let x ← parameterBytes? x
    let y ← parameterBytes? y
    return .ellipticCurve (0x04 :: x ++ y)
  | .octet _ | .octetPair _ => none

/-- Whether a key is of the family of an algorithm. -/
def VerifyingKey.fits : VerifyingKey → Algorithm → Bool
  | .rsa _ _, .rs256 | .rsa _ _, .rs384 | .rsa _ _, .rs512
  | .rsa _ _, .ps256 | .rsa _ _, .ps384 | .rsa _ _, .ps512
  | .ellipticCurve _, .es256 | .ellipticCurve _, .es384 => true
  | _, _ => false

/-- Whether a signature is one of a message under a key; a key of another family has none. -/
def VerifyingKey.verifies (k : VerifyingKey) (a : Algorithm) (message signature : List UInt8) :
    Bool :=
  match k, a with
  | .rsa n e, .rs256 => Crypto.Rsa.verifyPkcs1 .sha256 ⟨n, e⟩ message signature
  | .rsa n e, .rs384 => Crypto.Rsa.verifyPkcs1 .sha384 ⟨n, e⟩ message signature
  | .rsa n e, .rs512 => Crypto.Rsa.verifyPkcs1 .sha512 ⟨n, e⟩ message signature
  | .rsa n e, .ps256 => Crypto.Rsa.verifyPss .sha256 ⟨n, e⟩ message signature
  | .rsa n e, .ps384 => Crypto.Rsa.verifyPss .sha384 ⟨n, e⟩ message signature
  | .rsa n e, .ps512 => Crypto.Rsa.verifyPss .sha512 ⟨n, e⟩ message signature
  | .ellipticCurve q, .es256 => Crypto.Ecdsa.verify .p256 .sha256 q message signature
  | .ellipticCurve q, .es384 => Crypto.Ecdsa.verify .p384 .sha384 q message signature
  | _, _ => false

end TokenGate.Key
