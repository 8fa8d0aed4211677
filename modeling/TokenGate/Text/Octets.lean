/-!
# Texts and octets

A text goes over the wire as the octets of its UTF-8, and octets that have to be a text are written
as base64url.
-/

/-!
## UTF-8: characters as octets

The octets of a character are written with quotients and remainders by 64, and read back by the
alternatives of the standard: one octet below `0x80`, or a leading octet followed by one, two or
three octets of `0x80`-`0xBF`, where the second one is narrowed after `E0`, `ED`, `F0` and `F4` so
that no character has two encodings and no surrogate has one.

A reading that fails says where the last whole character ended and how many octets rule the text
out; `length = none` means that the text only stopped too early.
-/

namespace TokenGate.Text.Utf8

/-- The octets of one character. -/
def encodeChar (c : Char) : List UInt8 :=
  let n := c.toNat
  if n < 0x80 then [UInt8.ofNat n]
  else if n < 0x800 then [UInt8.ofNat (0xC0 + n / 64), UInt8.ofNat (0x80 + n % 64)]
  else if n < 0x10000 then
    [UInt8.ofNat (0xE0 + n / 4096), UInt8.ofNat (0x80 + n / 64 % 64), UInt8.ofNat (0x80 + n % 64)]
  else
    [UInt8.ofNat (0xF0 + n / 262144), UInt8.ofNat (0x80 + n / 4096 % 64),
      UInt8.ofNat (0x80 + n / 64 % 64), UInt8.ofNat (0x80 + n % 64)]

/-- The octets of a sequence of characters. -/
def encodeChars (cs : List Char) : List UInt8 := cs.flatMap encodeChar

/-- The octets of a text. -/
def encode (s : String) : List UInt8 := encodeChars s.toList

/-- Where a sequence of octets stops being a text. -/
structure Fault where
  /-- The number of octets before the offending sequence. -/
  validUpTo : Nat
  /-- The number of offending octets; none when the text ends inside a character. -/
  length : Option Nat
  deriving DecidableEq, Repr

/-- The wording of a fault. -/
def Fault.message (f : Fault) : String :=
  match f.length with
  | some n => s!"invalid utf-8 sequence of {n} bytes from index {f.validUpTo}"
  | none => s!"incomplete utf-8 byte sequence from index {f.validUpTo}"

/-- An octet that continues a character. -/
def isTail (b : UInt8) : Bool := 0x80 ≤ b && b ≤ 0xBF

/-- The second octets that may follow a leading octet of three. -/
def isSecondOfThree (a b : UInt8) : Bool :=
  if a = 0xE0 then 0xA0 ≤ b && b ≤ 0xBF
  else if a = 0xED then 0x80 ≤ b && b ≤ 0x9F
  else isTail b

/-- The second octets that may follow a leading octet of four. -/
def isSecondOfFour (a b : UInt8) : Bool :=
  if a = 0xF0 then 0x90 ≤ b && b ≤ 0xBF
  else if a = 0xF4 then 0x80 ≤ b && b ≤ 0x8F
  else isTail b

/-- Reads the characters of octets that start `at` octets into the text. -/
def decodeFrom (start : Nat) : List UInt8 → Except Fault (List Char)
  | [] => .ok []
  | a :: r =>
    if a < 0x80 then
      (Char.ofNat a.toNat :: ·) <$> decodeFrom (start + 1) r
    else if 0xC2 ≤ a && a ≤ 0xDF then
      match r with
      | [] => .error ⟨start, none⟩
      | b :: r =>
        if isTail b then
          (Char.ofNat ((a.toNat - 0xC0) * 64 + (b.toNat - 0x80)) :: ·) <$> decodeFrom (start + 2) r
        else .error ⟨start, some 1⟩
    else if 0xE0 ≤ a && a ≤ 0xEF then
      match r with
      | [] => .error ⟨start, none⟩
      | b :: r =>
        if isSecondOfThree a b then
          match r with
          | [] => .error ⟨start, none⟩
          | c :: r =>
            if isTail c then
              (Char.ofNat ((a.toNat - 0xE0) * 4096 + (b.toNat - 0x80) * 64 + (c.toNat - 0x80)) :: ·)
                <$> decodeFrom (start + 3) r
            else .error ⟨start, some 2⟩
        else .error ⟨start, some 1⟩
    else if 0xF0 ≤ a && a ≤ 0xF4 then
      match r with
      | [] => .error ⟨start, none⟩
      | b :: r =>
        if isSecondOfFour a b then
          match r with
          | [] => .error ⟨start, none⟩
          | c :: r =>
            if isTail c then
              match r with
              | [] => .error ⟨start, none⟩
              | d :: r =>
                if isTail d then
                  (Char.ofNat ((a.toNat - 0xF0) * 262144 + (b.toNat - 0x80) * 4096
                    + (c.toNat - 0x80) * 64 + (d.toNat - 0x80)) :: ·) <$> decodeFrom (start + 4) r
                else .error ⟨start, some 3⟩
            else .error ⟨start, some 2⟩
        else .error ⟨start, some 1⟩
    else .error ⟨start, some 1⟩

/-- Reads octets as a text. -/
def decode (bytes : List UInt8) : Except Fault String :=
  String.ofList <$> decodeFrom 0 bytes

end TokenGate.Text.Utf8

/-!
## Base64url without padding

Three octets make four symbols of the alphabet `A`-`Z a`-`z 0`-`9 - _`; a last group of one or two
octets makes two or three symbols, whose unused low bits are zero. Reading is strict: it refuses any
other symbol, padding included, a last group of one symbol, and unused bits that are set, so that
octets have exactly one written form.

A fault names the offending symbol and its offset. Groups that are followed by further symbols are
read from left to right; the last group is looked at as a whole, so that `=` signs there count as
padding when at least two symbols of the group stand before them.
-/

namespace TokenGate.Text.Base64Url

/-- The symbol of a value below 64. -/
def symbol (v : Nat) : UInt8 :=
  if v < 26 then UInt8.ofNat (0x41 + v)
  else if v < 52 then UInt8.ofNat (0x61 + (v - 26))
  else if v < 62 then UInt8.ofNat (0x30 + (v - 52))
  else if v = 62 then 0x2D
  else 0x5F

/-- The value of a symbol. -/
def value? (b : UInt8) : Option Nat :=
  let n := b.toNat
  if 0x41 ≤ n ∧ n ≤ 0x5A then some (n - 0x41)
  else if 0x61 ≤ n ∧ n ≤ 0x7A then some (n - 0x61 + 26)
  else if 0x30 ≤ n ∧ n ≤ 0x39 then some (n - 0x30 + 52)
  else if n = 0x2D then some 62
  else if n = 0x5F then some 63
  else none

/-- The padding sign, which is no symbol here. -/
def padding : UInt8 := 0x3D

/-! ### Writing -/

/-- The symbols of a sequence of octets. -/
def encode : List UInt8 → List UInt8
  | [] => []
  | [a] => [symbol (a.toNat / 4), symbol (a.toNat % 4 * 16)]
  | [a, b] =>
    [symbol (a.toNat / 4), symbol (a.toNat % 4 * 16 + b.toNat / 16), symbol (b.toNat % 16 * 4)]
  | a :: b :: c :: rest =>
    symbol (a.toNat / 4) :: symbol (a.toNat % 4 * 16 + b.toNat / 16)
      :: symbol (b.toNat % 16 * 4 + c.toNat / 64) :: symbol (c.toNat % 64) :: encode rest

/-! ### Reading -/

/-- Why a text is not the written form of any octets. -/
inductive Fault
  /-- A character outside the alphabet, or padding that belongs to no group. -/
  | invalidSymbol (byte : UInt8) (offset : Nat)
  /-- The last group has a single symbol. -/
  | invalidLength (length : Nat)
  /-- The last symbol has unused bits that are set. -/
  | invalidLastSymbol (byte : UInt8) (offset : Nat)
  /-- The text is padded. -/
  | invalidPadding
  deriving DecidableEq, Repr

/-- The wording of a fault. -/
def Fault.message : Fault → String
  | .invalidSymbol b i => s!"Invalid symbol {b.toNat}, offset {i}."
  | .invalidLength n => s!"Invalid input length: {n}"
  | .invalidLastSymbol b i => s!"Invalid last symbol {b.toNat}, offset {i}."
  | .invalidPadding => "Invalid padding"

/-- The value of the symbol at an offset. -/
def valueAt (b : UInt8) (offset : Nat) : Except Fault Nat :=
  match value? b with
  | some v => .ok v
  | none => .error (.invalidSymbol b offset)

/-- The values of the symbols that start at an offset. -/
def valuesFrom (start : Nat) : List UInt8 → Except Fault (List Nat)
  | [] => .ok []
  | b :: rest => do
    let v ← valueAt b start
    let vs ← valuesFrom (start + 1) rest
    return v :: vs

/-- The values of a last group: symbols alone, for padding is refused in one of two ways. -/
def lastValues (start : Nat) (group : List UInt8) : Except Fault (List Nat) := do
  let symbols := group.takeWhile (· ≠ padding)
  let values ← valuesFrom start symbols
  if symbols.length = group.length then return values
  else if symbols.length < 2 || (group.drop symbols.length).any (· ≠ padding) then
    .error (.invalidSymbol padding (start + symbols.length))
  else .error .invalidPadding

/-- Reads a last group of up to four characters. -/
def decodeLast (start : Nat) (group : List UInt8) : Except Fault (List UInt8) := do
  match ← lastValues start group with
  | [] => .ok []
  | [_] => .error (.invalidLength (start + 1))
  | [v, w] =>
    if w % 16 = 0 then .ok [UInt8.ofNat (v * 4 + w / 16)]
    else .error (.invalidLastSymbol (group.getD 1 0) (start + 1))
  | [v, w, x] =>
    if x % 4 = 0 then .ok [UInt8.ofNat (v * 4 + w / 16), UInt8.ofNat (w % 16 * 16 + x / 4)]
    else .error (.invalidLastSymbol (group.getD 2 0) (start + 2))
  | v :: w :: x :: y :: _ =>
    .ok [UInt8.ofNat (v * 4 + w / 16), UInt8.ofNat (w % 16 * 16 + x / 4),
      UInt8.ofNat (x % 4 * 64 + y)]

/-- Reads groups from an offset on; only the last one may be short. -/
def decodeFrom (start : Nat) : List UInt8 → Except Fault (List UInt8)
  | a :: b :: c :: d :: rest =>
    if rest = [] then decodeLast start [a, b, c, d]
    else do
      let v ← valueAt a start
      let w ← valueAt b (start + 1)
      let x ← valueAt c (start + 2)
      let y ← valueAt d (start + 3)
      let bytes ← decodeFrom (start + 4) rest
      return UInt8.ofNat (v * 4 + w / 16) :: UInt8.ofNat (w % 16 * 16 + x / 4)
        :: UInt8.ofNat (x % 4 * 64 + y) :: bytes
  | group => decodeLast start group

/-- A lone last character outside the alphabet, which is reported before anything else. -/
def strayLast? (text : List UInt8) : Option UInt8 :=
  if text.length % 4 = 1 then
    text.getLast?.filter fun b => b ≠ padding && (value? b).isNone
  else none

/-- Reads the octets that a text stands for. -/
def decode (text : List UInt8) : Except Fault (List UInt8) :=
  match strayLast? text with
  | some b => .error (.invalidSymbol b (text.length - 1))
  | none => decodeFrom 0 text

end TokenGate.Text.Base64Url
