import TokenGate.Text.Basic
import TokenGate.Text.Octets
import TokenGate.Text.Printable
import TokenGate.Url.Address

/-!
# Domains: host names in ASCII

The escapes of a host name are resolved, its letters are made small, and every label with characters
beyond ASCII is written in Punycode behind the mark `xn--`. A label that comes with the mark has to
be one that is written so. Some ASCII characters belong to no host name, nor do characters without a
form of their own; a few of these are dropped, and the full stops of other scripts separate labels
too.

Of the mapping and the rules of UTS 46 only these are here. Left out are the rest of its table of
characters (other than small letters, full-width forms and full stops), the composition of marks
(NFC), and the rules about marks at the start of a label, about joiners and about the direction of
writing (Bidi). So a name beyond ASCII may be accepted here that these rules refuse, or get another
form; a name in ASCII is the same with and without them, unless a label has the mark.
-/

/-!
## Percent encoding

A part of a URL writes some ASCII characters, and every other character, as the octets of their
UTF-8, each `%` and two upper-case hexadecimal digits. Which ASCII characters are written so depends
on the part.
-/

namespace TokenGate.Url.Percent

/-- A set of ASCII characters that a part of a URL cannot hold. -/
abbrev Reserved := Char → Bool

/-- The control characters. -/
def controls : Reserved := fun c => c.toNat < 0x20 || c.toNat = 0x7F

/-- What a fragment cannot hold. -/
def fragment : Reserved := fun c => controls c || c ∈ [' ', '"', '<', '>'] || c.toNat = 0x60

/-- What a path cannot hold. -/
def path : Reserved := fun c => fragment c || c ∈ ['#', '?', '\x7b', '\x7d']

/-- What a query cannot hold. -/
def query : Reserved := fun c => controls c || c ∈ [' ', '"', '#', '<', '>']

/-- What a query cannot hold in a URL of a special scheme. -/
def specialQuery : Reserved := fun c => query c || c = '\''

/-- The escape of an octet. -/
def escape (b : UInt8) : List Char :=
  ['%', Text.Hexadecimal.upperDigit (b.toNat / 16), Text.Hexadecimal.upperDigit (b.toNat % 16)]

/-- Characters as they stand in a part of a URL. -/
def encode (reserved : Reserved) (cs : List Char) : List Char :=
  cs.flatMap fun c =>
    if c.toNat < 0x80 && !reserved c then [c] else (Text.Utf8.encodeChar c).flatMap escape

/-- The octets of characters whose escapes are resolved; a stray `%` stands for itself. -/
def decode : List Char → List UInt8
  | [] => []
  | c :: rest =>
    if c = '%' then
      match rest with
      | a :: b :: more =>
        match Text.Hexadecimal.octet? a b with
        | some octet => octet :: decode more
        | none => 0x25 :: decode (a :: b :: more)
      | rest => 0x25 :: decode rest
    else Text.Utf8.encodeChar c ++ decode rest

end TokenGate.Url.Percent

/-!
## Punycode: labels of any characters in ASCII

A label is written as its ASCII characters, a hyphen if there are any, and one number for every
other character, in the order of the characters. The numbers count insertions between one such
character and the next; they are written in a variable base of 36 digits whose thresholds adapt to
the numbers seen.
-/

namespace TokenGate.Url.Punycode

/-- The character of a digit: letters, then figures. -/
def digitChar (d : Nat) : Char :=
  if d < 26 then Char.ofNat (0x61 + d) else Char.ofNat (0x30 + (d - 26))

/-- The digit of a character, in either case. -/
def digit? (c : Char) : Option Nat :=
  if 'a' ≤ c && c ≤ 'z' then some (c.toNat - 0x61)
  else if 'A' ≤ c && c ≤ 'Z' then some (c.toNat - 0x41)
  else if '0' ≤ c && c ≤ '9' then some (c.toNat - 0x30 + 26)
  else none

/-- The threshold of the digit at a position, which counts in steps of 36. -/
def threshold (position bias : Nat) : Nat :=
  if position ≤ bias then 1 else if bias + 26 ≤ position then 26 else position - bias

theorem threshold_pos (position bias : Nat) : 1 ≤ threshold position bias := by
  unfold threshold
  split
  · omega
  · split <;> omega

/-- Scales a difference down until it fits into the thresholds. -/
def scaleDown (delta steps : Nat) : Nat :=
  if h : 455 < delta then scaleDown (delta / 35) (steps + 36)
  else steps + 36 * delta / (delta + 38)
termination_by delta
decreasing_by omega

/-- The bias after a difference, when `count` characters are in place. -/
def adapt (delta count : Nat) (first : Bool) : Nat :=
  let delta := if first then delta / 700 else delta / 2
  scaleDown (delta + delta / count) 0

/-! ### Writing -/

/-- A number in the variable base. -/
def writeNumber (bias position q : Nat) : List Char :=
  let t := threshold position bias
  if h : q < t then [digitChar q]
  else digitChar (t + (q - t) % (36 - t)) :: writeNumber bias (position + 36) ((q - t) / (36 - t))
termination_by q
decreasing_by
  have h1 := threshold_pos position bias
  have h2 := Nat.div_le_self (q - threshold position bias) (36 - threshold position bias)
  simp only [t] at h
  omega

/-- What the writer has written and counted. -/
structure Writer where
  output : List Char
  delta : Nat
  bias : Nat
  /-- The number of characters in place. -/
  count : Nat

/-- One character of the label, while the characters equal to `m` are put in place. -/
def Writer.see (basic m : Nat) (w : Writer) (c : Char) : Writer :=
  if c.toNat < m then { w with delta := w.delta + 1 }
  else if c.toNat = m then
    { output := w.output ++ writeNumber w.bias 36 w.delta
      delta := 0
      bias := adapt w.delta (w.count + 1) (w.count = basic)
      count := w.count + 1 }
  else w

/-- Puts the characters of a label in place, in the order of their code points. -/
def writeAll (label : List Char) (basic : Nat) : List Nat → Nat → Writer → Writer
  | [], _, w => w
  | m :: rest, n, w =>
    let w := { w with delta := w.delta + (m - n) * (w.count + 1) }
    let w := label.foldl (Writer.see basic m) w
    writeAll label basic rest (m + 1) { w with delta := w.delta + 1 }

/-- Puts a code point in its place among others in increasing order. -/
def insertSorted (x : Nat) : List Nat → List Nat
  | [] => [x]
  | y :: ys => if x < y then x :: y :: ys else if x = y then y :: ys else y :: insertSorted x ys

/-- A label in ASCII, without the mark in front. -/
def encode (label : List Char) : List Char :=
  let basic := label.filter (·.toNat < 0x80)
  let others := (label.filter (0x80 ≤ ·.toNat)).foldl (fun xs c => insertSorted c.toNat xs) []
  let start := if basic = [] then [] else basic ++ ['-']
  (writeAll label basic.length others 0x80 ⟨start, 0, 72, basic.length⟩).output

/-! ### Reading -/

/-- A number in the variable base, and what follows it. -/
def readNumber (bias position weight value : Nat) : List Char → Option (Nat × List Char)
  | [] => none
  | c :: rest => do
    let d ← digit? c
    let t := threshold position bias
    let value := value + d * weight
    if 4294967296 ≤ value then none
    else if d < t then some (value, rest)
    else readNumber bias (position + 36) (weight * (36 - t)) value rest

/-- Puts characters into a label until the numbers end; `fuel` is the length of the text. -/
def readAll : Nat → Nat → Nat → Nat → List Char → List Char → Option (List Char)
  | _, _, _, _, label, [] => some label
  | 0, _, _, _, _, _ :: _ => none
  | fuel + 1, n, i, bias, label, text => do
    let (value, rest) ← readNumber bias 36 1 0 text
    let count := label.length + 1
    let total := i + value
    let bias := adapt value count (i = 0)
    let n := n + total / count
    let i := total % count
    if n < 0x110000 && !(0xD800 ≤ n && n ≤ 0xDFFF) then
      readAll fuel n (i + 1) bias (label.take i ++ Char.ofNat n :: label.drop i) rest
    else none

/-- The label of a text in ASCII without the mark in front. -/
def decode (text : List Char) : Option (List Char) :=
  let tail := (text.reverse.takeWhile (· ≠ '-')).reverse
  if tail.length = text.length then readAll text.length 0x80 0 72 [] text
  else
    let basic := text.take (text.length - tail.length - 1)
    readAll text.length 0x80 0 72 basic tail

end TokenGate.Url.Punycode

/-! ## Labels and names -/

namespace TokenGate.Url.Domain

/-- The ASCII characters that belong to no host name. -/
def isForbidden (c : Char) : Bool :=
  c.toNat ≤ 0x20 || c.toNat = 0x7F
    || c ∈ ['#', '/', ':', '<', '>', '?', '@', '[', '\\', ']', '^', '|', '%']

/-- The characters that are dropped from a host name. -/
def isIgnored (c : Char) : Bool :=
  let n := c.toNat
  n = 0xAD || n = 0x34F || (0x180B ≤ n && n ≤ 0x180F) || n = 0x200B || n = 0x2060 || n = 0x2064
    || (0xFE00 ≤ n && n ≤ 0xFE0F) || n = 0xFEFF

/-- The character that stands for another in a host name. -/
def mapChar (c : Char) : Char :=
  let n := c.toNat
  if n = 0x3002 || n = 0xFF61 then '.'
  else if 0xFF01 ≤ n && n ≤ 0xFF5E then (Char.ofNat (n - 0xFEE0)).toLower
  else Text.LowerCase.lower c

/-- Whether a character may stand in a label. -/
def isAllowed (c : Char) : Bool :=
  if c.toNat < 0x80 then !isForbidden c else !Text.Printable.isIn Text.Printable.unseen c.toNat

/-- The mark of a label in Punycode. -/
def mark : List Char := ['x', 'n', '-', '-']

/-- A label in ASCII. -/
def toAscii (label : List Char) : Except Fault (List Char) :=
  if label.all (·.toNat < 0x80) then
    if mark.isPrefixOf label then
      match Punycode.decode (label.drop 4) with
      | some decoded =>
        if decoded.any (0x80 ≤ ·.toNat) && decoded.all isAllowed && decoded.map mapChar = decoded
          && Punycode.encode decoded = label.drop 4 then .ok label
        else .error .invalidDomain
      | none => .error .invalidDomain
    else .ok label
  else .ok (mark ++ Punycode.encode label)

/-- The host name of a text, in ASCII. -/
def ofText (cs : List Char) : Except Fault (List Char) :=
  match Text.Utf8.decodeFrom 0 (Percent.decode cs) with
  | .error _ => .error .invalidDomain
  | .ok chars =>
    let mapped := (chars.filter fun c => !isIgnored c).map mapChar
    if mapped.all isAllowed then do
      let parts ← (Text.splitOn '.' mapped).mapM toAscii
      return ['.'].intercalate parts
    else .error .invalidDomain

end TokenGate.Url.Domain
