/-!
# Binary floating-point numbers of 64 bits

A finite number is `mantissa · 2 ^ exponent` with a sign. The exponent is at least `-1074` and at
most `971`, the mantissa is below `2 ^ 53`, and it is at least `2 ^ 52` unless the exponent is
`-1074`; so equal numbers have equal parts, apart from the two zeros, which differ in their sign.
Numbers are made by rounding an exact quotient of naturals: to the nearest number, and to the one
with the even mantissa when two are equally near. A quotient too large for any finite number has no
rounding.
-/

/-! ## Rounding -/

namespace TokenGate.Number

/-- A finite binary64 number. -/
structure Binary64 where
  /-- Whether the number is below zero, or the negative zero. -/
  negative : Bool
  /-- The significand. -/
  mantissa : Nat
  /-- The power of two that scales it. -/
  exponent : Int
  deriving DecidableEq, Repr, Inhabited

namespace Binary64

/-- The least exponent, that of the subnormal numbers. -/
def minExponent : Int := -1074

/-- The greatest exponent of a finite number. -/
def maxExponent : Int := 971

/-- The zero of a sign. -/
def zero (negative : Bool) : Binary64 := ⟨negative, 0, minExponent⟩

/-- The quotient of `n · 2 ^ -e` by `d`, as a fraction of naturals. -/
def scaled (n d : Nat) (e : Int) : Nat × Nat :=
  if 0 ≤ e then (n, d * Nat.pow 2 e.toNat) else (n * Nat.pow 2 (-e).toNat, d)

/-- The exponent at which `n / d` has 53 binary digits before the point, or the least one. -/
def scale (n d : Nat) : Int :=
  let guess : Int := (n.log2 : Int) - d.log2 - 52
  let (p, q) := scaled n d guess
  let e := if p / q < Nat.pow 2 52 then guess - 1 else guess
  max e minExponent

/-- The natural nearest to `p / q`, the even one of two that are equally near. -/
def roundQuotient (p q : Nat) : Nat :=
  let whole := p / q
  let rest := p % q
  if 2 * rest < q then whole
  else if q < 2 * rest then whole + 1
  else whole + whole % 2

/-- The number nearest to a quotient of naturals, if it is finite. -/
def ofRatio (negative : Bool) (n d : Nat) : Option Binary64 :=
  if n = 0 then some (zero negative)
  else
    let e := scale n d
    let (p, q) := scaled n d e
    let m := roundQuotient p q
    let (m, e) := if m = Nat.pow 2 53 then (Nat.pow 2 52, e + 1) else (m, e)
    if maxExponent < e then none else some ⟨negative, m, e⟩

/-- The number nearest to a natural. -/
def ofNat? (n : Nat) : Option Binary64 := ofRatio false n 1

/-- The magnitude as a quotient of naturals. -/
def ratio (x : Binary64) : Nat × Nat :=
  if 0 ≤ x.exponent then (x.mantissa * Nat.pow 2 x.exponent.toNat, 1)
  else (x.mantissa, Nat.pow 2 (-x.exponent).toNat)

/-- Whether the number is one of the two zeros. -/
def isZero (x : Binary64) : Bool := x.mantissa = 0

/-- The rounded product. -/
def mul? (x y : Binary64) : Option Binary64 :=
  let (a, b) := x.ratio
  let (c, d) := y.ratio
  ofRatio (x.negative != y.negative) (a * c) (b * d)

/-- The rounded quotient by a number other than zero. -/
def div? (x y : Binary64) : Option Binary64 :=
  let (a, b) := x.ratio
  let (c, d) := y.ratio
  ofRatio (x.negative != y.negative) (a * d) (b * c)

/-- The number nearest to `digits · 10 ^ power`, rounded once. -/
def ofDecimal (negative : Bool) (digits : Nat) (power : Int) : Option Binary64 :=
  if 0 ≤ power then ofRatio negative (digits * Nat.pow 10 power.toNat) 1
  else ofRatio negative digits (Nat.pow 10 (-power).toNat)

/-- The natural nearest to the magnitude, the greater one of two that are equally near. -/
def roundToNat (x : Binary64) : Nat :=
  let (a, b) := x.ratio
  (2 * a + b) / (2 * b)

end TokenGate.Number.Binary64

/-!
## Shortest digits: the fewest decimal digits that read back

Every finite number other than zero is the rounding of an interval of reals, whose ends belong to it
exactly when the mantissa is even. `shortest` looks at the decimal grids of one, two, … significant
digits and takes, on the first grid that meets the interval, the point nearest to the number; at
most seventeen digits are needed.

Two forms are written from the digits: the plain one without any exponent, and the compact one,
which is plain for magnitudes from `1e-5` below `1e16` and has an exponent elsewhere.
-/

namespace TokenGate.Number.Shortest

/-- A decimal significand and the power of ten that scales it. -/
structure Digits where
  /-- The significand. -/
  significand : Nat
  /-- The power of ten of its last digit. -/
  power : Int
  deriving DecidableEq, Repr

/-- An interval of reals around a number, with all points over one denominator. -/
structure Interval where
  /-- The lower end. -/
  low : Nat
  /-- The number itself. -/
  point : Nat
  /-- The upper end. -/
  high : Nat
  /-- The denominator. -/
  denominator : Nat
  /-- Whether the ends belong to the interval. -/
  closed : Bool

/-- The reals that round to a number. Below a power of two the neighbour is half as far away. -/
def interval (x : Binary64) : Interval :=
  let narrow := x.mantissa = Nat.pow 2 52 ∧ Binary64.minExponent < x.exponent
  let below := if narrow then 1 else 2
  let up := if 0 ≤ x.exponent then Nat.pow 2 x.exponent.toNat else 1
  let down := if 0 ≤ x.exponent then 1 else Nat.pow 2 (-x.exponent).toNat
  { low := (4 * x.mantissa - below) * up
    point := 4 * x.mantissa * up
    high := (4 * x.mantissa + 2) * up
    denominator := 4 * down
    closed := x.mantissa % 2 = 0 }

/-- Whether `n · 10 ^ power` lies in an interval. -/
def Interval.contains (i : Interval) (n : Nat) (power : Int) : Bool :=
  let v := if 0 ≤ power then n * Nat.pow 10 power.toNat * i.denominator else n * i.denominator
  let s := if 0 ≤ power then 1 else Nat.pow 10 (-power).toNat
  if i.closed then i.low * s ≤ v && v ≤ i.high * s else i.low * s < v && v < i.high * s

/-- The distance of `n · 10 ^ power` from the number, up to a factor that depends on `power` only.
-/
def Interval.distance (i : Interval) (n : Nat) (power : Int) : Nat :=
  let v := if 0 ≤ power then n * Nat.pow 10 power.toNat * i.denominator else n * i.denominator
  let p := if 0 ≤ power then i.point else i.point * Nat.pow 10 (-power).toNat
  if v ≤ p then p - v else v - p

/-- The greatest multiple of `10 ^ power` that does not exceed the number. -/
def Interval.floor (i : Interval) (power : Int) : Nat :=
  if 0 ≤ power then i.point / (i.denominator * Nat.pow 10 power.toNat)
  else i.point * Nat.pow 10 (-power).toNat / i.denominator

/-- The point of the grid `10 ^ power` in the interval that is nearest to the number. -/
def Interval.nearest (i : Interval) (power : Int) : Option Nat :=
  let n := i.floor power
  match i.contains n power && 0 < n, i.contains (n + 1) power with
  | true, true => some (if i.distance n power ≤ i.distance (n + 1) power then n else n + 1)
  | true, false => some n
  | false, true => some (n + 1)
  | false, false => none

/-- The decimal exponent of the first digit of `point / denominator`. -/
def Interval.magnitude (i : Interval) : Int :=
  if i.denominator ≤ i.point then
    ((Nat.repr (i.point / i.denominator)).length : Int) - 1
  else
    -((Nat.repr ((i.denominator - 1) / i.point)).length : Int)

/-- Drops the zeros at the end of a significand. -/
def trim : Nat → Digits → Digits
  | 0, d => d
  | fuel + 1, d =>
    if d.significand % 10 = 0 ∧ d.significand ≠ 0 then trim fuel ⟨d.significand / 10, d.power + 1⟩
    else d

/-- The first grid that meets the interval, from `count` digits on. -/
def search (i : Interval) (top : Int) : Nat → Nat → Option Digits
  | 0, _ => none
  | fuel + 1, count =>
    let power := top - (count : Int) + 1
    match i.nearest power with
    | some n => some ⟨n, power⟩
    | none => search i top fuel (count + 1)

/-- The shortest digits of the magnitude of a number. -/
def shortest (x : Binary64) : Digits :=
  if x.isZero then ⟨0, 0⟩
  else
    let i := interval x
    match search i i.magnitude 18 1 with
    | some d => trim 20 d
    | none => ⟨x.mantissa, x.exponent⟩

/-! ### The written forms -/

/-- A row of zeros. -/
def zeros (n : Nat) : String := String.ofList (List.replicate n '0')

/-- The digits without an exponent; a whole number has no point. -/
def positional (d : Digits) : String :=
  let text := Nat.repr d.significand
  if 0 ≤ d.power then
    if d.significand = 0 then text else text ++ zeros d.power.toNat
  else
    let places := (-d.power).toNat
    if places < text.length then
      let cut := text.length - places
      String.ofList (text.toList.take cut) ++ "." ++ String.ofList (text.toList.drop cut)
    else "0." ++ zeros (places - text.length) ++ text

/-- The sign of a number as it is written. -/
def sign (x : Binary64) : String := if x.negative then "-" else ""

/-- A number without any exponent: `1000`, `80.5`, `0.000001`. -/
def plain (x : Binary64) : String := sign x ++ positional (shortest x)

/-- A number with a point or an exponent: `1000.0`, `1.5`, `1e30`, `1.5e-7`. -/
def compact (x : Binary64) : String :=
  let d := shortest x
  let text := Nat.repr d.significand
  let top : Int := (text.length : Int) + d.power
  sign x ++
    if x.isZero then "0.0"
    else if 0 ≤ d.power ∧ top ≤ 16 then positional d ++ ".0"
    else if -5 < top ∧ top ≤ 16 then positional d
    else
      let mantissa := match text.toList with
        | c :: r@(_ :: _) => String.ofList (c :: '.' :: r)
        | _ => text
      mantissa ++ "e" ++ toString (top - 1)

end TokenGate.Number.Shortest

/-!
## Decimal texts: numbers with a point, an exponent or a name

A text is a sign or none and then either a name (`inf`, `infinity` and `nan`, in any case) or digits
with at most one point, of which there is at least one digit, and an exponent or none. It denotes
the binary64 number nearest to its exact value; what is too large for that is infinite.
-/

namespace TokenGate.Number

/-- A binary64 number or what lies beyond them. -/
inductive Extended
  | finite (value : Binary64)
  | infinite (negative : Bool)
  | notANumber
  deriving DecidableEq, Repr

/-- Whether a number is finite. -/
def Extended.isFinite : Extended → Bool
  | .finite _ => true
  | _ => false

/-- A number without any exponent. -/
def Extended.plain : Extended → String
  | .finite x => Shortest.plain x
  | .infinite true => "-inf"
  | .infinite false => "inf"
  | .notANumber => "NaN"

namespace Decimal

/-- Whether a character is a decimal digit. -/
def isDigit (c : Char) : Bool := '0' ≤ c && c ≤ '9'

/-- The natural that decimal digits denote. -/
def natural (digits : List Char) : Nat :=
  digits.foldl (fun n c => n * 10 + (c.toNat - '0'.toNat)) 0

/-- The sign in front, and what follows it. -/
def splitSign : List Char → Bool × List Char
  | '-' :: cs => (true, cs)
  | '+' :: cs => (false, cs)
  | cs => (false, cs)

/-- The exponent that a text consists of; nothing is no exponent. -/
def exponent? : List Char → Option Int
  | [] => some 0
  | e :: cs =>
    let (below, digits) := splitSign cs
    if (e = 'e' || e = 'E') && !digits.isEmpty && digits.all isDigit then
      some (if below then -(natural digits : Int) else natural digits)
    else none

/-- The number nearest to `digits · 10 ^ power`. A power far off the range of all numbers is not
raised. -/
def nearest (negative : Bool) (digits : Nat) (power : Int) : Extended :=
  let size : Int := (Nat.repr digits).length + power
  if digits = 0 || size < -330 then .finite (Binary64.zero negative)
  else if 310 < size then .infinite negative
  else match Binary64.ofDecimal negative digits power with
    | some x => .finite x
    | none => .infinite negative

/-- The number that digits, a point and an exponent denote. -/
def magnitude? (negative : Bool) (cs : List Char) : Option Extended :=
  let whole := cs.takeWhile isDigit
  let rest := cs.dropWhile isDigit
  let (fraction, rest) := match rest with
    | '.' :: rest => (rest.takeWhile isDigit, rest.dropWhile isDigit)
    | rest => ([], rest)
  if whole.isEmpty && fraction.isEmpty then none
  else (exponent? rest).map fun e =>
    nearest negative (natural (whole ++ fraction)) (e - fraction.length)

/-- The number of a text. -/
def ofText? (cs : List Char) : Option Extended :=
  let (negative, rest) := splitSign cs
  let name := rest.map Char.toLower
  if name = "inf".toList || name = "infinity".toList then some (.infinite negative)
  else if name = "nan".toList then some .notANumber
  else magnitude? negative rest

end Decimal

end TokenGate.Number
