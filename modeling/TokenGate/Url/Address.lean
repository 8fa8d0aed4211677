import TokenGate.Text.Basic

/-!
# Numeric hosts of URLs

A host is an address rather than a name if its last label is a number, or if it stands in brackets.
-/

/-! ## Faults: why a text is no URL -/

namespace TokenGate.Url

/-- Why a text is no URL. -/
inductive Fault
  | relative
  | emptyHost
  | invalidPort
  | invalidIpv4
  | invalidIpv6
  | invalidDomain
  | invalidDomainCharacter
  deriving DecidableEq, Repr

/-- The wording of a fault. -/
def Fault.message : Fault → String
  | .relative => "relative URL without a base"
  | .emptyHost => "empty host"
  | .invalidPort => "invalid port number"
  | .invalidIpv4 => "invalid IPv4 address"
  | .invalidIpv6 => "invalid IPv6 address"
  | .invalidDomain => "invalid international domain name"
  | .invalidDomainCharacter => "invalid domain character"

end TokenGate.Url

/-!
## IPv4 addresses in URLs

A host whose last label is a number is an IPv4 address: one to four numbers, each decimal, octal
after a `0` or hexadecimal after `0x`. The last number fills the octets that the others leave.
-/

namespace TokenGate.Url.Ipv4

/-- The value of a digit in a base up to 16. -/
def digit? (base : Nat) (c : Char) : Option Nat :=
  let v :=
    if '0' ≤ c && c ≤ '9' then c.toNat - 0x30
    else if 'a' ≤ c && c ≤ 'f' then c.toNat - 0x61 + 10
    else if 'A' ≤ c && c ≤ 'F' then c.toNat - 0x41 + 10
    else base
  if v < base then some v else none

/-- The value of digits in a base. -/
def value? (base : Nat) (cs : List Char) : Option Nat :=
  cs.foldlM (fun n c => (digit? base c).map (n * base + ·)) 0

/-- The value of a number of an address; nothing behind its mark is zero. -/
def number? : List Char → Option Nat
  | [] => none
  | '0' :: 'x' :: cs | '0' :: 'X' :: cs => value? 16 cs
  | '0' :: c :: cs => value? 8 (c :: cs)
  | cs => value? 10 cs

/-- The labels that count: an empty one at the end does not. -/
def significant (host : List Char) : List (List Char) :=
  let ls := Text.splitOn '.' host
  if ls.getLast? = some [] then ls.dropLast else ls

/-- Whether a host has to be an address. -/
def isExpected (host : List Char) : Bool :=
  match (significant host).getLast? with
  | none => false
  | some last =>
    (!last.isEmpty && last.all fun c => '0' ≤ c && c ≤ '9') || (number? last).isSome

/-- The address of a host, as a natural of 32 bits. -/
def ofHost (host : List Char) : Except Fault Nat :=
  match (significant host).mapM number? with
  | none => .error .invalidIpv4
  | some numbers =>
    match numbers.reverse with
    | [] => .error .invalidIpv4
    | last :: others =>
      if 3 < others.length || others.any (255 < ·) || Nat.pow 256 (4 - others.length) ≤ last then
        .error .invalidIpv4
      else
        .ok (others.reverse.zipIdx.foldl (fun a (n, i) => a + n * Nat.pow 256 (3 - i)) last)

/-- The text of an address. -/
def render (a : Nat) : List Char :=
  (Nat.repr (a / 16777216) ++ "." ++ Nat.repr (a / 65536 % 256) ++ "." ++ Nat.repr (a / 256 % 256)
    ++ "." ++ Nat.repr (a % 256)).toList

end TokenGate.Url.Ipv4

/-!
## IPv6 addresses in URLs

An address is eight pieces of 16 bits. In a text the pieces are hexadecimal with colons between
them; one double colon stands for as many zero pieces as are missing, and the last two pieces may be
written as an IPv4 address of four decimal numbers. An address is printed with its longest row of
two or more zero pieces, the first of several, as a double colon.
-/

namespace TokenGate.Url.Ipv6

/-- A piece of one to four hexadecimal digits. -/
def piece? (cs : List Char) : Option Nat :=
  if cs.isEmpty || 4 < cs.length then none else Ipv4.value? 16 cs

/-- A decimal number up to 255 without superfluous zeros. -/
def octet? (cs : List Char) : Option Nat :=
  if cs.isEmpty || (cs.head? = some '0' && cs.length ≠ 1) then none
  else (Ipv4.value? 10 cs).filter (· ≤ 255)

/-- The two pieces of an embedded address of four numbers. -/
def embedded? (cs : List Char) : Option (List Nat) :=
  match (Text.splitOn '.' cs).mapM octet? with
  | some [a, b, c, d] => some [a * 256 + b, c * 256 + d]
  | _ => none

/-- The pieces of a row of parts; the last part may be an embedded address if that is allowed. -/
def pieces? (mayEmbed : Bool) : List (List Char) → Option (List Nat)
  | [] => some []
  | [cs] => if mayEmbed && cs.contains '.' then embedded? cs else (piece? cs).map ([·])
  | cs :: rest => do
    let p ← piece? cs
    let ps ← pieces? mayEmbed rest
    return p :: ps

/-- The first double colon of a text, with what stands on both sides. -/
def splitDouble? : List Char → Option (List Char × List Char)
  | ':' :: ':' :: rest => some ([], rest)
  | c :: rest => (splitDouble? rest).map fun (before, after) => (c :: before, after)
  | [] => none

/-- The pieces on one side of a double colon. -/
def side? (mayEmbed : Bool) (cs : List Char) : Option (List Nat) :=
  if cs = [] then some [] else pieces? mayEmbed (Text.splitOn ':' cs)

/-- The pieces of an address. -/
def ofText? (cs : List Char) : Option (List Nat) :=
  match splitDouble? cs with
  | none => (side? true cs).filter (·.length = 8)
  | some (before, after) => do
    let front ← side? false before
    let back ← side? true after
    if front.length + back.length < 8 then
      some (front ++ List.replicate (8 - front.length - back.length) 0 ++ back)
    else none

/-- The length of the row of zeros at the front. -/
def zeroRun (pieces : List Nat) : Nat := (pieces.takeWhile (· = 0)).length

/-- The start and the length of the longest row of zeros from an index on. -/
def longestRun (index : Nat) : List Nat → Nat × Nat
  | [] => (index, 0)
  | p :: rest =>
    let here := zeroRun (p :: rest)
    let later := longestRun (index + 1) rest
    if later.2 ≤ here then (index, here) else later

/-- Pieces with colons between them. -/
def join (pieces : List Nat) : List Char :=
  [':'].intercalate (pieces.map (Nat.toDigits 16))

/-- The text of an address. -/
def render (pieces : List Nat) : List Char :=
  let (start, length) := longestRun 0 pieces
  if length < 2 then join pieces
  else join (pieces.take start) ++ [':', ':'] ++ join (pieces.drop (start + length))

end TokenGate.Url.Ipv6
