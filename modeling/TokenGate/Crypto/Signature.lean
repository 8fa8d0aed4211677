import TokenGate.Crypto.Hash

/-!
# Signatures

Two families of signatures are checked, each with a key of its own kind: those of RSA, and those on
elliptic curves.
-/

/-!
## RSA signatures

A signature is as long as the modulus and denotes a natural below it; raised to the public exponent
it gives an encoded message. In the older scheme that is a fixed padding, the name of the digest,
and the digest, so the encoding is unique and is compared as a whole. In the probabilistic scheme it
hides a salt, here as long as the digest, which is recovered and digested again.

A key needs a modulus of 2048 to 8192 bits that is odd, and an odd exponent of 2 to 33 bits, both
written without leading zeros.
-/

namespace TokenGate.Crypto.Rsa

/-- A public key, as its octets. -/
structure PublicKey where
  modulus : List UInt8
  exponent : List UInt8
  deriving DecidableEq, Repr

/-- The number of binary digits. -/
def bitLength (n : Nat) : Nat := if n = 0 then 0 else n.log2 + 1

/-- Whether a key can be used. -/
def PublicKey.isUsable (k : PublicKey) : Bool :=
  let n := natOfOctets k.modulus
  let e := natOfOctets k.exponent
  k.modulus.head? ≠ some 0 && k.exponent.head? ≠ some 0
    && 2048 ≤ bitLength n && bitLength n ≤ 8192 && n % 2 = 1
    && 2 ≤ bitLength e && bitLength e ≤ 33 && e % 2 = 1

/-- The encoded message of a signature, as long as the modulus. -/
def recover? (k : PublicKey) (signature : List UInt8) : Option (List UInt8) :=
  let n := natOfOctets k.modulus
  let s := natOfOctets signature
  if k.isUsable && signature.length = k.modulus.length && s < n then
    some (octetsOfNat k.modulus.length (powMod s (natOfOctets k.exponent) n))
  else none

/-- What stands before a digest to name it. -/
def digestName : Hash → List UInt8
  | .sha256 => [0x30, 0x31, 0x30, 0x0D, 0x06, 0x09, 0x60, 0x86, 0x48, 0x01, 0x65, 0x03, 0x04, 0x02,
      0x01, 0x05, 0x00, 0x04, 0x20]
  | .sha384 => [0x30, 0x41, 0x30, 0x0D, 0x06, 0x09, 0x60, 0x86, 0x48, 0x01, 0x65, 0x03, 0x04, 0x02,
      0x02, 0x05, 0x00, 0x04, 0x30]
  | .sha512 => [0x30, 0x51, 0x30, 0x0D, 0x06, 0x09, 0x60, 0x86, 0x48, 0x01, 0x65, 0x03, 0x04, 0x02,
      0x03, 0x05, 0x00, 0x04, 0x40]

/-- The encoded message of the older scheme in a number of octets. -/
def encodePkcs1 (h : Hash) (message : List UInt8) (width : Nat) : List UInt8 :=
  let tail := digestName h ++ h.digest message
  [0x00, 0x01] ++ List.replicate (width - 3 - tail.length) 0xFF ++ [0x00] ++ tail

/-- Checks a signature of the older scheme. -/
def verifyPkcs1 (h : Hash) (k : PublicKey) (message signature : List UInt8) : Bool :=
  recover? k signature = some (encodePkcs1 h message k.modulus.length)

/-- The first octets of a mask made from a seed. -/
def mask (h : Hash) (seed : List UInt8) (length : Nat) : List UInt8 :=
  ((List.range (length / h.length + 1)).flatMap fun i =>
    h.digest (seed ++ octetsOfNat 4 i)).take length

/-- Clears the highest bits of the first octet. -/
def clearBits (count : Nat) : List UInt8 → List UInt8
  | [] => []
  | b :: rest => UInt8.ofNat (b.toNat % Nat.pow 2 (8 - count)) :: rest

/-- Checks an encoded message of the probabilistic scheme for a modulus of a number of bits. -/
def verifyPssEncoding (h : Hash) (message encoded : List UInt8) (modulusBits : Nat) : Bool :=
  let bits := modulusBits - 1
  let width := (bits + 7) / 8
  let unused := 8 * width - bits
  let lead := encoded.take (encoded.length - width)
  let encoded := encoded.drop (encoded.length - width)
  let maskLength := width - h.length - 1
  let masked := encoded.take maskLength
  let digest := (encoded.drop maskLength).take h.length
  let block := clearBits unused
    (List.zipWith (· ^^^ ·) masked (mask h digest maskLength))
  let salt := block.drop (maskLength - h.length)
  lead.all (· = 0) && 2 * h.length + 2 ≤ width && encoded.getLast? = some 0xBC
    && clearBits unused masked = masked
    && block.take (maskLength - h.length)
      = List.replicate (maskLength - h.length - 1) 0 ++ [0x01]
    && h.digest (List.replicate 8 0 ++ h.digest message ++ salt) = digest

/-- Checks a signature of the probabilistic scheme. -/
def verifyPss (h : Hash) (k : PublicKey) (message signature : List UInt8) : Bool :=
  match recover? k signature with
  | some encoded => verifyPssEncoding h message encoded (bitLength (natOfOctets k.modulus))
  | none => false

end TokenGate.Crypto.Rsa

/-!
## Elliptic curves over prime fields

Points of a curve `y² = x³ - 3x + b` modulo a prime, with the addition of secants and tangents. In
the course of a multiplication points are kept with a common denominator, so that only one division
is needed at the end. The two curves are P-256 and P-384.
-/

namespace TokenGate.Crypto

/-- A curve with a base point. -/
structure Curve where
  /-- The modulus of the field. -/
  p : Nat
  /-- The constant of the equation. -/
  b : Nat
  /-- The coordinates of the base point. -/
  gx : Nat
  gy : Nat
  /-- The order of the base point. -/
  n : Nat
  /-- The number of octets of a coordinate. -/
  width : Nat
  deriving DecidableEq, Repr

namespace Curve

/-- The curve P-256. -/
def p256 : Curve where
  p := 0xFFFFFFFF00000001000000000000000000000000FFFFFFFFFFFFFFFFFFFFFFFF
  b := 0x5AC635D8AA3A93E7B3EBBD55769886BC651D06B0CC53B0F63BCE3C3E27D2604B
  gx := 0x6B17D1F2E12C4247F8BCE6E563A440F277037D812DEB33A0F4A13945D898C296
  gy := 0x4FE342E2FE1A7F9B8EE7EB4A7C0F9E162BCE33576B315ECECBB6406837BF51F5
  n := 0xFFFFFFFF00000000FFFFFFFFFFFFFFFFBCE6FAADA7179E84F3B9CAC2FC632551
  width := 32

/-- The curve P-384. -/
def p384 : Curve where
  p := 0xFFFFFFFFFFFFFFFFFFFFFFFFFFFFFFFFFFFFFFFFFFFFFFFFFFFFFFFFFFFFFFFEFFFFFFFF0000000000000000FFFFFFFF
  b := 0xB3312FA7E23EE7E4988E056BE3F82D19181D9C6EFE8141120314088F5013875AC656398D8A2ED19D2A85C8EDD3EC2AEF
  gx := 0xAA87CA22BE8B05378EB1C71EF320AD746E1D3B628BA79B9859F741E082542A385502F25DBF55296C3A545E3872760AB7
  gy := 0x3617DE4A96262C6F5D9E98BF9292DC29F8F41DBD289A147CE9DA3113B5F0B8C00A60B1CE1D7E819D7A431D7C90EA0E5F
  n := 0xFFFFFFFFFFFFFFFFFFFFFFFFFFFFFFFFFFFFFFFFFFFFFFFFC7634D81F4372DDF581A0DB248B0A77AECEC196ACCC52973
  width := 48

variable (c : Curve)

/-- The difference in the field. -/
def sub (x y : Nat) : Nat := (x + (c.p - y % c.p)) % c.p

/-- Whether a pair of coordinates is a point of the curve. -/
def contains (x y : Nat) : Bool :=
  x < c.p && y < c.p && y * y % c.p = c.sub (x * x % c.p * x + c.b) (3 * x)

/-- A point `(x / z², y / z³)`, the neutral point if `z` is zero. -/
structure Point where
  x : Nat
  y : Nat
  z : Nat
  deriving DecidableEq, Repr

/-- The neutral point. -/
def Point.zero : Point := ⟨1, 1, 0⟩

/-- The sum of a point with itself. -/
def double (q : Point) : Point :=
  let p := c.p
  let delta := q.z * q.z % p
  let gamma := q.y * q.y % p
  let beta := q.x * gamma % p
  let alpha := 3 * (c.sub q.x delta) * (q.x + delta) % p
  let x := c.sub (alpha * alpha) (8 * beta)
  let z := c.sub ((q.y + q.z) * (q.y + q.z)) (gamma + delta)
  let y := c.sub (alpha * c.sub (4 * beta) x) (8 * gamma * gamma)
  ⟨x, y, z⟩

/-- The sum of two points. -/
def add (q r : Point) : Point :=
  if q.z = 0 then r
  else if r.z = 0 then q
  else
    let p := c.p
    let z1 := q.z * q.z % p
    let z2 := r.z * r.z % p
    let u1 := q.x * z2 % p
    let u2 := r.x * z1 % p
    let s1 := q.y * r.z % p * z2 % p
    let s2 := r.y * q.z % p * z1 % p
    let h := c.sub u2 u1
    let t := c.sub s2 s1
    if h = 0 then (if t = 0 then c.double q else .zero)
    else
      let h2 := h * h % p
      let h3 := h2 * h % p
      let v := u1 * h2 % p
      let x := c.sub (t * t) (h3 + 2 * v)
      let y := c.sub (t * c.sub v x) (s1 * h3)
      ⟨x, y, h * q.z % p * r.z % p⟩

/-- The sum of a number of equal points. -/
def multiply (k : Nat) (q : Point) : Point :=
  if k = 0 then .zero
  else
    let twice := c.double (multiply (k / 2) q)
    if k % 2 = 0 then twice else c.add twice q
termination_by k
decreasing_by omega

/-- The inverse modulo a prime. -/
def inverse (x prime : Nat) : Nat := powMod x (prime - 2) prime

/-- The first coordinate of a point; the neutral point has none. -/
def abscissa? (q : Point) : Option Nat :=
  if q.z = 0 then none
  else some (q.x * inverse (q.z * q.z % c.p) c.p % c.p)

end Curve

end TokenGate.Crypto

/-!
## Signatures on elliptic curves

A signature is two naturals `r` and `s` of the width of a coordinate. With the digest `h` of the
message it is valid under the point `Q` if the first coordinate of `(h / s) · G + (r / s) · Q` is
`r` modulo the order of the base point `G`.
-/

namespace TokenGate.Crypto.Ecdsa

/-- The point of a public key: the octet `04` and two coordinates. -/
def point? (c : Curve) (key : List UInt8) : Option Curve.Point :=
  match key with
  | [] => none
  | tag :: rest =>
    let x := natOfOctets (rest.take c.width)
    let y := natOfOctets (rest.drop c.width)
    if tag = 0x04 && rest.length = 2 * c.width && c.contains x y then some ⟨x, y, 1⟩ else none

/-- The digest of a message as a natural of the width of a coordinate. -/
def digestNat (c : Curve) (h : Hash) (message : List UInt8) : Nat :=
  natOfOctets ((h.digest message).take c.width)

/-- Checks a signature. -/
def verify (c : Curve) (h : Hash) (key message signature : List UInt8) : Bool :=
  match point? c key with
  | none => false
  | some q =>
    let r := natOfOctets (signature.take c.width)
    let s := natOfOctets (signature.drop c.width)
    if signature.length = 2 * c.width ∧ 0 < r ∧ r < c.n ∧ 0 < s ∧ s < c.n then
      let w := Curve.inverse s c.n
      let u := digestNat c h message * w % c.n
      let v := r * w % c.n
      let sum := c.add (c.multiply u ⟨c.gx, c.gy, 1⟩) (c.multiply v q)
      match c.abscissa? sum with
      | some x => x % c.n = r
      | none => false
    else false

end TokenGate.Crypto.Ecdsa
