import TokenGate.Json.Shape

/-!
# Tokens: the lexemes of a JSON text

A string is read in two ways, because a member that nobody asks for is only passed over. Passing
over checks the escapes and refuses control characters; reading for the content also wants
surrogates in pairs and valid UTF-8. A lexeme that cannot even be passed over ends the tokens of a
text.
-/

/-! ## Lexemes -/

namespace TokenGate.Json

/-- A string of a text, read for its content and passed over. -/
structure Literal where
  /-- The content, or why there is none. -/
  content : Except TextFault String
  /-- What stops a reader that only passes over the string. -/
  blocked : Option TextFault

/-- A lexeme of a text. -/
inductive Token
  | openArray
  | closeArray
  | openObject
  | closeObject
  | comma
  | colon
  | null
  | bool (value : Bool)
  | number (value : Except TextFault Number)
  | string (value : Literal)
  /-- Characters that start no value, or break off inside a word or a number. -/
  | broken (fault : TextFault)

end TokenGate.Json

/-!
## Numerals: the numbers of a JSON text

A numeral is an optional minus sign, an integer part without superfluous zeros, an optional fraction
and an optional exponent. Without fraction and exponent it denotes an integer if that fits into 64
bits, with a sign or without; the numeral `-0` denotes the negative zero.

Every other numeral denotes a binary64 number, which is found from the significant digits and the
power of ten in two roundings: the digits, as a natural of 64 bits, are rounded to a binary64
number, and that is multiplied or divided by the rounded power of ten. Digits of the integer part
that no longer fit into 64 bits only raise the power, and digits of the fraction that no longer fit
are dropped.
-/

namespace TokenGate.Json.Numeral

open TokenGate.Number

/-- Whether an octet is a decimal digit. -/
def isDigit (b : UInt8) : Bool := 0x30 ≤ b && b ≤ 0x39

/-- The value of a decimal digit. -/
def digit (b : UInt8) : Nat := b.toNat - 0x30

/-- The digits at the front, and what follows them. -/
def spanDigits : List UInt8 → List Nat × List UInt8
  | [] => ([], [])
  | b :: rest =>
    if isDigit b then
      let (ds, after) := spanDigits rest
      (digit b :: ds, after)
    else ([], b :: rest)

theorem length_spanDigits (bs : List UInt8) :
    (spanDigits bs).2.length + (spanDigits bs).1.length = bs.length := by
  fun_induction spanDigits bs <;> simp_all
  omega

/-- A numeral taken apart. -/
structure Parts where
  /-- Whether it starts with a minus sign. -/
  negative : Bool
  /-- The digits of the integer part. -/
  whole : List Nat
  /-- The digits of the fraction, if there is one. -/
  fraction : Option (List Nat)
  /-- The sign and the digits of the exponent, if there is one. -/
  exponent : Option (Bool × List Nat)

/-! ### The value of a numeral -/

/-- The greatest natural of 64 bits. -/
def maxNatural : Nat := 18446744073709551615

/-- A natural of 64 bits with as many of the digits appended as fit, and the number of those left.
-/
def absorb (start : Nat) : List Nat → Nat × Nat
  | [] => (start, 0)
  | d :: ds =>
    if start * 10 + d ≤ maxNatural then absorb (start * 10 + d) ds else (start, ds.length + 1)

/-- The rounded power of ten, for exponents up to 308. -/
def powerOfTen (n : Nat) : Option Binary64 := Binary64.ofDecimal false 1 n

/-- `x / 10 ^ n` in steps of at most 308 powers. -/
def divideByPower : Nat → Binary64 → Nat → Option Binary64
  | 0, x, _ => some x
  | fuel + 1, x, n =>
    if x.isZero then some x
    else if n ≤ 308 then (powerOfTen n).bind x.div?
    else ((powerOfTen 308).bind x.div?).bind fun y => divideByPower fuel y (n - 308)

/-- The number of some digits and a power of ten; none if it is too large. -/
def scaled (negative : Bool) (digits : Nat) (power : Int) : Option Binary64 := do
  let x ← Binary64.ofNat? digits
  let y ←
    if power < 0 then divideByPower ((-power).toNat / 308 + 1) x (-power).toNat
    else if power ≤ 308 then (powerOfTen power.toNat).bind x.mul?
    else if x.isZero then some x
    else none
  return { y with negative := negative }

/-- The greatest magnitude of a written exponent, a natural of 31 bits. -/
def maxExponent : Nat := 2147483647

/-- The value of the digits of an exponent; none if it is beyond every bound. -/
def exponentValue (digits : List Nat) : Option Nat :=
  digits.foldl (fun n? d => n?.bind fun n =>
    if n * 10 + d ≤ maxExponent then some (n * 10 + d) else none) (some 0)

/-- An exponent as an integer of 32 bits that stays at the ends of its range. -/
def clampExponent (z : Int) : Int := max (-2147483648) (min 2147483647 z)

/-- The value of a numeral with a fraction, an exponent or too many digits. -/
def Parts.float (p : Parts) : Except TextFault Number :=
  let (significand, dropped) := absorb 0 p.whole
  let fraction := p.fraction.getD []
  let (significand, unread) := absorb significand fraction
  let power : Int := (dropped : Int) - (fraction.length - unread : Nat)
  let written : Option (Option Binary64) :=
    match p.exponent with
    | none => some (scaled p.negative significand power)
    | some (below, digits) =>
      match exponentValue digits with
      | some e =>
        let power := clampExponent (if below then power - e else power + e)
        some (scaled p.negative significand power)
      | none =>
        if significand ≠ 0 ∧ ¬ below then none else some (some (Binary64.zero p.negative))
  match written with
  | some (some x) => .ok (.float x)
  | _ => .error .numberOutOfRange

/-- The value of a numeral. -/
def Parts.value (p : Parts) : Except TextFault Number :=
  if p.fraction.isSome || p.exponent.isSome then p.float
  else
    let (n, dropped) := absorb 0 p.whole
    if dropped ≠ 0 then p.float
    else if p.negative then
      if n = 0 then .ok (.float (Binary64.zero true))
      else if n ≤ 9223372036854775808 then .ok (.int (-(n : Int)))
      else
        match Binary64.ofNat? n with
        | some x => .ok (.float { x with negative := true })
        | none => .error .numberOutOfRange
    else .ok (.int n)

/-! ### Taking a numeral apart -/

/-- One digit or more at the front. -/
def scanDigits (bs : List UInt8) : Except TextFault (List Nat × List UInt8) :=
  match spanDigits bs with
  | ([], []) => .error .endOfValue
  | ([], _ :: _) => .error .invalidNumber
  | (d :: ds, after) => .ok (d :: ds, after)

/-- The integer part at the front, which starts with a zero only if it is zero. -/
def scanWhole (bs : List UInt8) : Except TextFault (List Nat × List UInt8) := do
  let (ds, after) ← scanDigits bs
  if ds.head? = some 0 ∧ ds.length ≠ 1 then .error .invalidNumber else return (ds, after)

/-- The fraction at the front, if there is a point. -/
def scanFraction : List UInt8 → Except TextFault (Option (List Nat) × List UInt8)
  | [] => .ok (none, [])
  | p :: rest =>
    if p = 0x2E then do
      let (ds, after) ← scanDigits rest
      return (some ds, after)
    else .ok (none, p :: rest)

/-- The sign of an exponent, and what follows it. -/
def spanSign : List UInt8 → Bool × List UInt8
  | [] => (false, [])
  | s :: rest =>
    if s = 0x2B then (false, rest) else if s = 0x2D then (true, rest) else (false, s :: rest)

/-- The exponent at the front, if there is its mark. -/
def scanExponent : List UInt8 → Except TextFault (Option (Bool × List Nat) × List UInt8)
  | [] => .ok (none, [])
  | e :: rest =>
    if e = 0x65 || e = 0x45 then do
      let (ds, after) ← scanDigits (spanSign rest).2
      return (some ((spanSign rest).1, ds), after)
    else .ok (none, e :: rest)

/-- The numeral at the front, after its sign. -/
def scan (negative : Bool) (bs : List UInt8) : Except TextFault (Parts × List UInt8) := do
  let (whole, bs) ← scanWhole bs
  let (fraction, bs) ← scanFraction bs
  let (exponent, bs) ← scanExponent bs
  return (⟨negative, whole, fraction, exponent⟩, bs)

/-! ### What is left behind a numeral -/

theorem length_scanDigits {bs : List UInt8} {r : List Nat × List UInt8}
    (h : scanDigits bs = .ok r) : r.2.length < bs.length := by
  have hlen := length_spanDigits bs
  unfold scanDigits at h
  split at h <;> simp_all
  subst h
  simp only
  omega

theorem length_scanWhole {bs : List UInt8} {r : List Nat × List UInt8}
    (h : scanWhole bs = .ok r) : r.2.length < bs.length := by
  unfold scanWhole at h
  cases hd : scanDigits bs with
  | error f => simp [hd, bind, Except.bind] at h
  | ok w =>
    have := length_scanDigits hd
    simp only [hd, bind, Except.bind, pure, Except.pure] at h
    split at h <;> cases h
    exact this

theorem length_scanFraction {bs : List UInt8} {r : Option (List Nat) × List UInt8}
    (h : scanFraction bs = .ok r) : r.2.length ≤ bs.length := by
  unfold scanFraction at h
  split at h
  · cases h; simp
  · rename_i p rest
    split at h
    · cases hd : scanDigits rest with
      | error f => simp [hd, bind, Except.bind] at h
      | ok w =>
        have := length_scanDigits hd
        simp only [hd, bind, Except.bind, pure, Except.pure] at h
        cases h
        simp only [List.length_cons]
        omega
    · cases h; simp

theorem length_spanSign (bs : List UInt8) : (spanSign bs).2.length ≤ bs.length := by
  fun_cases spanSign bs <;> simp

theorem length_scanExponent {bs : List UInt8} {r : Option (Bool × List Nat) × List UInt8}
    (h : scanExponent bs = .ok r) : r.2.length ≤ bs.length := by
  unfold scanExponent at h
  split at h
  · cases h; simp
  · rename_i e rest
    split at h
    · cases hd : scanDigits (spanSign rest).2 with
      | error f => simp [hd, bind, Except.bind] at h
      | ok w =>
        have h1 := length_scanDigits hd
        have h2 := length_spanSign rest
        simp only [hd, bind, Except.bind, pure, Except.pure] at h
        cases h
        simp only [List.length_cons]
        omega
    · cases h; simp

theorem length_scan {negative : Bool} {bs : List UInt8} {r : Parts × List UInt8}
    (h : scan negative bs = .ok r) : r.2.length < bs.length := by
  unfold scan at h
  cases hw : scanWhole bs with
  | error f => simp [hw, bind, Except.bind] at h
  | ok w =>
    cases hf : scanFraction w.2 with
    | error f => simp [hw, hf, bind, Except.bind] at h
    | ok f =>
      cases he : scanExponent f.2 with
      | error f => simp_all [bind, Except.bind]
      | ok e =>
        have h1 := length_scanWhole hw
        have h2 := length_scanFraction hf
        have h3 := length_scanExponent he
        simp only [hw, hf, he, bind, Except.bind, pure, Except.pure] at h
        cases h
        simp only
        omega

end TokenGate.Json.Numeral
