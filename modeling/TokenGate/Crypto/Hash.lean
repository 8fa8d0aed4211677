/-!
# Digests

The digests of the SHA-2 family that signatures are made for.
-/

/-!
## SHA-256: digests of 256 bits

A message is padded to blocks of sixteen words of 32 bits. Each block goes through 64 rounds, whose
words are the block and then a recurrence over the last sixteen, and is added to the state.
-/

namespace TokenGate.Crypto.Sha256

/-- A rotation to the right. -/
def rotr (x : UInt32) (n : UInt32) : UInt32 := (x >>> n) ||| (x <<< (32 - n))

/-- The first 32 bits of the fractions of the cube roots of the first 64 primes. -/
def roundConstants : List UInt32 := [
  0x428A2F98, 0x71374491, 0xB5C0FBCF, 0xE9B5DBA5, 0x3956C25B, 0x59F111F1,
  0x923F82A4, 0xAB1C5ED5, 0xD807AA98, 0x12835B01, 0x243185BE, 0x550C7DC3,
  0x72BE5D74, 0x80DEB1FE, 0x9BDC06A7, 0xC19BF174, 0xE49B69C1, 0xEFBE4786,
  0x0FC19DC6, 0x240CA1CC, 0x2DE92C6F, 0x4A7484AA, 0x5CB0A9DC, 0x76F988DA,
  0x983E5152, 0xA831C66D, 0xB00327C8, 0xBF597FC7, 0xC6E00BF3, 0xD5A79147,
  0x06CA6351, 0x14292967, 0x27B70A85, 0x2E1B2138, 0x4D2C6DFC, 0x53380D13,
  0x650A7354, 0x766A0ABB, 0x81C2C92E, 0x92722C85, 0xA2BFE8A1, 0xA81A664B,
  0xC24B8B70, 0xC76C51A3, 0xD192E819, 0xD6990624, 0xF40E3585, 0x106AA070,
  0x19A4C116, 0x1E376C08, 0x2748774C, 0x34B0BCB5, 0x391C0CB3, 0x4ED8AA4A,
  0x5B9CCA4F, 0x682E6FF3, 0x748F82EE, 0x78A5636F, 0x84C87814, 0x8CC70208,
  0x90BEFFFA, 0xA4506CEB, 0xBEF9A3F7, 0xC67178F2]

/-- The eight words of the state. -/
structure State where
  a : UInt32
  b : UInt32
  c : UInt32
  d : UInt32
  e : UInt32
  f : UInt32
  g : UInt32
  h : UInt32
  deriving DecidableEq, Repr

/-- The word that follows sixteen words of the schedule. -/
def nextWord (window : List UInt32) : UInt32 :=
  let x := window.getD 1 0
  let y := window.getD 14 0
  (rotr y 17 ^^^ rotr y 19 ^^^ y >>> 10) + window.getD 9 0
    + (rotr x 7 ^^^ rotr x 18 ^^^ x >>> 3) + window.getD 0 0

/-- One round, with its constant and its word of the schedule. -/
def round (s : State) (k w : UInt32) : State :=
  let choice := (s.e &&& s.f) ^^^ (~~~s.e &&& s.g)
  let majority := (s.a &&& s.b) ^^^ (s.a &&& s.c) ^^^ (s.b &&& s.c)
  let t1 := s.h + (rotr s.e 6 ^^^ rotr s.e 11 ^^^ rotr s.e 25) + choice + k + w
  let t2 := (rotr s.a 2 ^^^ rotr s.a 13 ^^^ rotr s.a 22) + majority
  ⟨t1 + t2, s.a, s.b, s.c, s.d + t1, s.e, s.f, s.g⟩

/-- All rounds; the window slides over the schedule. -/
def rounds : List UInt32 → State → List UInt32 → State
  | [], s, _ => s
  | k :: ks, s, window =>
    rounds ks (round s k (window.getD 0 0)) (window.tail ++ [nextWord window])

/-- The state after a block of sixteen words. -/
def compress (s : State) (block : List UInt32) : State :=
  let t := rounds roundConstants s block
  ⟨s.a + t.a, s.b + t.b, s.c + t.c, s.d + t.d, s.e + t.e, s.f + t.f, s.g + t.g, s.h + t.h⟩

/-- The words of some octets, most significant octet first. -/
def words : List UInt8 → List UInt32
  | a :: b :: c :: d :: rest =>
    UInt32.ofNat ([a, b, c, d].foldl (fun n x => n * 256 + x.toNat) 0) :: words rest
  | _ => []

/-- The octets of a natural, most significant first. -/
def octets : Nat → Nat → List UInt8
  | 0, _ => []
  | n + 1, x => UInt8.ofNat (x / Nat.pow 256 n) :: octets n x

/-- A message with a one bit, zeros, and its length in bits, filling whole blocks. -/
def pad (message : List UInt8) : List UInt8 :=
  let n := message.length
  message ++ 0x80 :: List.replicate ((119 - n % 64) % 64) 0 ++ octets 8 (n * 8)

/-- Runs through the words of a message block by block. -/
def absorb : Nat → State → List UInt32 → State
  | 0, s, _ => s
  | fuel + 1, s, ws => if ws = [] then s else absorb fuel (compress s (ws.take 16)) (ws.drop 16)

/-- The state after a message. -/
def run (start : State) (message : List UInt8) : State :=
  let ws := words (pad message)
  absorb ws.length start ws

/-- The octets of a state. -/
def State.octets (s : State) : List UInt8 :=
  [s.a, s.b, s.c, s.d, s.e, s.f, s.g, s.h].flatMap fun w => Sha256.octets 4 w.toNat

/-- The first 32 bits of the fractions of the square roots of the first eight primes. -/
def start256 : State := ⟨
  0x6A09E667, 0xBB67AE85, 0x3C6EF372, 0xA54FF53A,
  0x510E527F, 0x9B05688C, 0x1F83D9AB, 0x5BE0CD19⟩

/-- The digest of 256 bits. -/
def digest (message : List UInt8) : List UInt8 := (run start256 message).octets

end TokenGate.Crypto.Sha256

/-!
## SHA-512: digests of 512 and of 384 bits

A message is padded to blocks of sixteen words of 64 bits. Each block goes through 80 rounds, whose
words are the block and then a recurrence over the last sixteen, and is added to the state.
-/

namespace TokenGate.Crypto.Sha512

/-- A rotation to the right. -/
def rotr (x : UInt64) (n : UInt64) : UInt64 := (x >>> n) ||| (x <<< (64 - n))

/-- The first 64 bits of the fractions of the cube roots of the first 80 primes. -/
def roundConstants : List UInt64 := [
  0x428A2F98D728AE22, 0x7137449123EF65CD, 0xB5C0FBCFEC4D3B2F, 0xE9B5DBA58189DBBC,
  0x3956C25BF348B538, 0x59F111F1B605D019, 0x923F82A4AF194F9B, 0xAB1C5ED5DA6D8118,
  0xD807AA98A3030242, 0x12835B0145706FBE, 0x243185BE4EE4B28C, 0x550C7DC3D5FFB4E2,
  0x72BE5D74F27B896F, 0x80DEB1FE3B1696B1, 0x9BDC06A725C71235, 0xC19BF174CF692694,
  0xE49B69C19EF14AD2, 0xEFBE4786384F25E3, 0x0FC19DC68B8CD5B5, 0x240CA1CC77AC9C65,
  0x2DE92C6F592B0275, 0x4A7484AA6EA6E483, 0x5CB0A9DCBD41FBD4, 0x76F988DA831153B5,
  0x983E5152EE66DFAB, 0xA831C66D2DB43210, 0xB00327C898FB213F, 0xBF597FC7BEEF0EE4,
  0xC6E00BF33DA88FC2, 0xD5A79147930AA725, 0x06CA6351E003826F, 0x142929670A0E6E70,
  0x27B70A8546D22FFC, 0x2E1B21385C26C926, 0x4D2C6DFC5AC42AED, 0x53380D139D95B3DF,
  0x650A73548BAF63DE, 0x766A0ABB3C77B2A8, 0x81C2C92E47EDAEE6, 0x92722C851482353B,
  0xA2BFE8A14CF10364, 0xA81A664BBC423001, 0xC24B8B70D0F89791, 0xC76C51A30654BE30,
  0xD192E819D6EF5218, 0xD69906245565A910, 0xF40E35855771202A, 0x106AA07032BBD1B8,
  0x19A4C116B8D2D0C8, 0x1E376C085141AB53, 0x2748774CDF8EEB99, 0x34B0BCB5E19B48A8,
  0x391C0CB3C5C95A63, 0x4ED8AA4AE3418ACB, 0x5B9CCA4F7763E373, 0x682E6FF3D6B2B8A3,
  0x748F82EE5DEFB2FC, 0x78A5636F43172F60, 0x84C87814A1F0AB72, 0x8CC702081A6439EC,
  0x90BEFFFA23631E28, 0xA4506CEBDE82BDE9, 0xBEF9A3F7B2C67915, 0xC67178F2E372532B,
  0xCA273ECEEA26619C, 0xD186B8C721C0C207, 0xEADA7DD6CDE0EB1E, 0xF57D4F7FEE6ED178,
  0x06F067AA72176FBA, 0x0A637DC5A2C898A6, 0x113F9804BEF90DAE, 0x1B710B35131C471B,
  0x28DB77F523047D84, 0x32CAAB7B40C72493, 0x3C9EBE0A15C9BEBC, 0x431D67C49C100D4C,
  0x4CC5D4BECB3E42B6, 0x597F299CFC657E2A, 0x5FCB6FAB3AD6FAEC, 0x6C44198C4A475817]

/-- The eight words of the state. -/
structure State where
  a : UInt64
  b : UInt64
  c : UInt64
  d : UInt64
  e : UInt64
  f : UInt64
  g : UInt64
  h : UInt64
  deriving DecidableEq, Repr

/-- The word that follows sixteen words of the schedule. -/
def nextWord (window : List UInt64) : UInt64 :=
  let x := window.getD 1 0
  let y := window.getD 14 0
  (rotr y 19 ^^^ rotr y 61 ^^^ y >>> 6) + window.getD 9 0
    + (rotr x 1 ^^^ rotr x 8 ^^^ x >>> 7) + window.getD 0 0

/-- One round, with its constant and its word of the schedule. -/
def round (s : State) (k w : UInt64) : State :=
  let choice := (s.e &&& s.f) ^^^ (~~~s.e &&& s.g)
  let majority := (s.a &&& s.b) ^^^ (s.a &&& s.c) ^^^ (s.b &&& s.c)
  let t1 := s.h + (rotr s.e 14 ^^^ rotr s.e 18 ^^^ rotr s.e 41) + choice + k + w
  let t2 := (rotr s.a 28 ^^^ rotr s.a 34 ^^^ rotr s.a 39) + majority
  ⟨t1 + t2, s.a, s.b, s.c, s.d + t1, s.e, s.f, s.g⟩

/-- All rounds; the window slides over the schedule. -/
def rounds : List UInt64 → State → List UInt64 → State
  | [], s, _ => s
  | k :: ks, s, window =>
    rounds ks (round s k (window.getD 0 0)) (window.tail ++ [nextWord window])

/-- The state after a block of sixteen words. -/
def compress (s : State) (block : List UInt64) : State :=
  let t := rounds roundConstants s block
  ⟨s.a + t.a, s.b + t.b, s.c + t.c, s.d + t.d, s.e + t.e, s.f + t.f, s.g + t.g, s.h + t.h⟩

/-- The words of some octets, most significant octet first. -/
def words : List UInt8 → List UInt64
  | a :: b :: c :: d :: e :: f :: g :: h :: rest =>
    UInt64.ofNat ([a, b, c, d, e, f, g, h].foldl (fun n x => n * 256 + x.toNat) 0) :: words rest
  | _ => []

/-- The octets of a natural, most significant first. -/
def octets : Nat → Nat → List UInt8
  | 0, _ => []
  | n + 1, x => UInt8.ofNat (x / Nat.pow 256 n) :: octets n x

/-- A message with a one bit, zeros, and its length in bits, filling whole blocks. -/
def pad (message : List UInt8) : List UInt8 :=
  let n := message.length
  message ++ 0x80 :: List.replicate ((239 - n % 128) % 128) 0 ++ octets 16 (n * 8)

/-- Runs through the words of a message block by block. -/
def absorb : Nat → State → List UInt64 → State
  | 0, s, _ => s
  | fuel + 1, s, ws => if ws = [] then s else absorb fuel (compress s (ws.take 16)) (ws.drop 16)

/-- The state after a message. -/
def run (start : State) (message : List UInt8) : State :=
  let ws := words (pad message)
  absorb ws.length start ws

/-- The octets of a state. -/
def State.octets (s : State) : List UInt8 :=
  [s.a, s.b, s.c, s.d, s.e, s.f, s.g, s.h].flatMap fun w => Sha512.octets 8 w.toNat

/-- The first 64 bits of the fractions of the square roots of the first eight primes. -/
def start512 : State := ⟨
  0x6A09E667F3BCC908, 0xBB67AE8584CAA73B, 0x3C6EF372FE94F82B, 0xA54FF53A5F1D36F1,
  0x510E527FADE682D1, 0x9B05688C2B3E6C1F, 0x1F83D9ABFB41BD6B, 0x5BE0CD19137E2179⟩

/-- The same of the ninth to the sixteenth prime. -/
def start384 : State := ⟨
  0xCBBB9D5DC1059ED8, 0x629A292A367CD507, 0x9159015A3070DD17, 0x152FECD8F70E5939,
  0x67332667FFC00B31, 0x8EB44A8768581511, 0xDB0C2E0D64F98FA7, 0x47B5481DBEFA4FA4⟩

/-- The digest of 512 bits. -/
def digest512 (message : List UInt8) : List UInt8 := (run start512 message).octets

/-- The digest of 384 bits, which is cut off from one of 512 bits with another start. -/
def digest384 (message : List UInt8) : List UInt8 := (run start384 message).octets.take 48

end TokenGate.Crypto.Sha512

/-!
## Digests, and naturals as octets

The three digests that signatures are made for, and the reading of octets as a natural, the most
significant octet first.
-/

namespace TokenGate.Crypto

/-- A digest function. -/
inductive Hash
  | sha256
  | sha384
  | sha512
  deriving DecidableEq, Repr

/-- The number of octets of a digest. -/
def Hash.length : Hash → Nat
  | .sha256 => 32
  | .sha384 => 48
  | .sha512 => 64

/-- The digest of a message. -/
def Hash.digest : Hash → List UInt8 → List UInt8
  | .sha256 => Sha256.digest
  | .sha384 => Sha512.digest384
  | .sha512 => Sha512.digest512

/-- The natural that some octets stand for. -/
def natOfOctets (bytes : List UInt8) : Nat := bytes.foldl (fun n b => n * 256 + b.toNat) 0

/-- A natural in a number of octets. -/
def octetsOfNat : Nat → Nat → List UInt8
  | 0, _ => []
  | width + 1, n => UInt8.ofNat (n / Nat.pow 256 width) :: octetsOfNat width n

/-- A power modulo a natural, by squaring. -/
def powMod (base exponent modulus : Nat) : Nat :=
  if exponent = 0 then 1 % modulus
  else
    let half := powMod base (exponent / 2) modulus
    let square := half * half % modulus
    if exponent % 2 = 0 then square else square * base % modulus
termination_by exponent
decreasing_by omega

end TokenGate.Crypto
