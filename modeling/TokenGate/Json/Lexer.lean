import TokenGate.Json.Token
import TokenGate.Text.Octets

/-!
# Lexer: from octets to tokens

Blanks are space, tab, line feed and carriage return. The first octet after them decides what the
next token is. The lexer stops behind a token that cannot be passed over, since nothing after it is
looked at.
-/

/-!
## Literals: the strings of a JSON text

A literal is scanned octet by octet from its opening quote on. Two results are kept at once: the
octets of the content, with the first fault that a reader of the content meets, and the fault that
stops a reader who only passes over. An escape `\uD83D` must be followed by the escape of the other
half of its pair to have a content, but each of the two may be passed over on its own. Whether the
content is valid UTF-8 is looked at when the closing quote is found.
-/

namespace TokenGate.Json

namespace Literal

open TokenGate.Text

/-- The value of a hexadecimal digit. -/
def hexDigit? (b : UInt8) : Option Nat :=
  let n := b.toNat
  if 0x30 ≤ n ∧ n ≤ 0x39 then some (n - 0x30)
  else if 0x41 ≤ n ∧ n ≤ 0x46 then some (n - 0x41 + 10)
  else if 0x61 ≤ n ∧ n ≤ 0x66 then some (n - 0x61 + 10)
  else none

/-- The value of four hexadecimal digits. -/
def hexValue? (a b c d : UInt8) : Option Nat := do
  let a ← hexDigit? a
  let b ← hexDigit? b
  let c ← hexDigit? c
  let d ← hexDigit? d
  return a * 4096 + b * 256 + c * 16 + d

/-- The octet that an escape of two characters stands for. -/
def simpleEscape? (b : UInt8) : Option UInt8 :=
  if b = 0x22 then some 0x22
  else if b = 0x5C then some 0x5C
  else if b = 0x2F then some 0x2F
  else if b = 0x62 then some 0x08
  else if b = 0x66 then some 0x0C
  else if b = 0x6E then some 0x0A
  else if b = 0x72 then some 0x0D
  else if b = 0x74 then some 0x09
  else none

/-- The first half of a surrogate pair. -/
def isLeading (n : Nat) : Bool := 0xD800 ≤ n && n ≤ 0xDBFF

/-- The second half of a surrogate pair. -/
def isTrailing (n : Nat) : Bool := 0xDC00 ≤ n && n ≤ 0xDFFF

/-- The character of a surrogate pair. -/
def joinSurrogates (high low : Nat) : Char :=
  Char.ofNat (0x10000 + (high - 0xD800) * 0x400 + (low - 0xDC00))

/-- The second half of a pair, looked for behind the escape of the first half. -/
def trailingHalf (rest : List UInt8) : Except TextFault Nat :=
  match rest with
  | [] => .error .endOfString
  | b :: rest =>
    if b ≠ 0x5C then .error .endOfEscape
    else match rest with
      | [] => .error .endOfString
      | u :: rest =>
        if u ≠ 0x75 then .error .endOfEscape
        else match rest with
          | a :: b :: c :: d :: _ =>
            match hexValue? a b c d with
            | none => .error .invalidEscape
            | some n => if isTrailing n then .ok n else .error .loneSurrogate
          | _ => .error .endOfString

/-- How far the scan of a literal has come. -/
structure Scan where
  /-- The octets of the content, the last one first. -/
  content : List UInt8
  /-- The first fault of the content. -/
  fault : Option TextFault
  /-- Half of a surrogate pair whose other half comes next. -/
  high : Option Nat

/-- The scan before the first character. -/
def Scan.start : Scan := ⟨[], none, none⟩

/-- Adds octets to the content. -/
def Scan.push (s : Scan) (bytes : List UInt8) : Scan :=
  { s with content := bytes.reverse ++ s.content }

/-- Notes a fault of the content unless there was one before. -/
def Scan.fail (s : Scan) (f : TextFault) : Scan :=
  { s with fault := s.fault.or (some f), high := none }

/-- The scan after an escape of four hexadecimal digits that is followed by `rest`. -/
def Scan.escape (s : Scan) (n : Nat) (rest : List UInt8) : Scan :=
  match s.high with
  | some high => { s.push (Utf8.encodeChar (joinSurrogates high n)) with high := none }
  | none =>
    if isTrailing n then s.fail .loneSurrogate
    else if isLeading n then
      match trailingHalf rest with
      | .ok _ => { s with high := some n }
      | .error f => s.fail f
    else s.push (Utf8.encodeChar (Char.ofNat n))

/-- The literal of a scan that met the closing quote. -/
def Scan.close (s : Scan) : Literal :=
  match s.fault with
  | some f => ⟨.error f, none⟩
  | none =>
    match Utf8.decode s.content.reverse with
    | .ok text => ⟨.ok text, none⟩
    | .error _ => ⟨.error .invalidCodePoint, none⟩

/-- The literal of a scan that cannot go on. -/
def Scan.block (s : Scan) (f : TextFault) : Literal :=
  ⟨.error (s.fault.getD f), some f⟩

/-- The literal whose characters come next, and what follows its closing quote. -/
def scan (s : Scan) : List UInt8 → Literal × List UInt8
  | [] => (s.block .endOfString, [])
  | b :: rest =>
    if b = 0x22 then (s.close, rest)
    else if b < 0x20 then (s.block .controlCharacter, [])
    else if b ≠ 0x5C then scan (s.push [b]) rest
    else match rest with
      | [] => (s.block .endOfString, [])
      | e :: rest =>
        if e = 0x75 then
          match rest with
          | a :: b :: c :: d :: rest =>
            match hexValue? a b c d with
            | some n => scan (s.escape n rest) rest
            | none => (s.block .invalidEscape, [])
          | _ => (s.block .endOfString, [])
        else match simpleEscape? e with
          | some b => scan (s.push [b]) rest
          | none => (s.block .invalidEscape, [])

theorem length_scan (s : Scan) (bs : List UInt8) : (scan s bs).2.length ≤ bs.length := by
  fun_induction scan s bs <;> simp_all <;> omega

end Literal

end TokenGate.Json

/-! ## Tokens -/

namespace TokenGate.Json.Lexer

/-- The octets that may stand between tokens. -/
def isBlank (b : UInt8) : Bool := b = 0x20 || b = 0x0A || b = 0x0D || b = 0x09

/-- The rest of a word, whose first letter is gone. -/
def word (token : Token) : List UInt8 → List UInt8 → Token × List UInt8
  | [], rest => (token, rest)
  | _ :: _, [] => (.broken .endOfValue, [])
  | c :: cs, b :: rest => if b = c then word token cs rest else (.broken .expectedIdent, [])

theorem length_word (token : Token) (cs bs : List UInt8) :
    (word token cs bs).2.length ≤ bs.length := by
  fun_induction word token cs bs <;> simp_all
  omega

/-- The number that comes next. -/
def numeral (negative : Bool) (bs : List UInt8) : Token × List UInt8 :=
  match Numeral.scan negative bs with
  | .ok (parts, rest) => (.number parts.value, rest)
  | .error f => (.broken f, [])

/-- The token of a punctuation mark. -/
def mark? (b : UInt8) : Option Token :=
  if b = 0x5B then some .openArray
  else if b = 0x5D then some .closeArray
  else if b = 0x7B then some .openObject
  else if b = 0x7D then some .closeObject
  else if b = 0x2C then some .comma
  else if b = 0x3A then some .colon
  else none

/-- The token that starts with an octet other than a blank, and what follows it. -/
def next (b : UInt8) (rest : List UInt8) : Token × List UInt8 :=
  match mark? b with
  | some token => (token, rest)
  | none =>
    if b = 0x22 then
      let (literal, after) := Literal.scan .start rest
      (.string literal, after)
    else if b = 0x6E then word .null [0x75, 0x6C, 0x6C] rest
    else if b = 0x74 then word (.bool true) [0x72, 0x75, 0x65] rest
    else if b = 0x66 then word (.bool false) [0x61, 0x6C, 0x73, 0x65] rest
    else if b = 0x2D then numeral true rest
    else if Numeral.isDigit b then numeral false (b :: rest)
    else (.broken .expectedValue, [])

theorem length_numeral {negative : Bool} {bs : List UInt8} :
    (numeral negative bs).2.length ≤ bs.length - 1 := by
  unfold numeral
  split
  · rename_i h
    have := Numeral.length_scan h
    simp only at this ⊢
    omega
  · simp

theorem length_next (b : UInt8) (rest : List UInt8) :
    (next b rest).2.length ≤ rest.length := by
  have hw := fun t cs => length_word t cs rest
  have hn := @length_numeral true rest
  have hd := @length_numeral false (b :: rest)
  have hl := Literal.length_scan .start rest
  simp only [List.length_cons, Nat.add_sub_cancel] at hd
  unfold next
  split
  · exact Nat.le_refl _
  · simp only [apply_ite Prod.snd, apply_ite List.length]
    grind

/-- The tokens of a text. -/
def lex : List UInt8 → List Token
  | [] => []
  | b :: rest =>
    if isBlank b then lex rest
    else (next b rest).1 :: lex (next b rest).2
termination_by bs => bs.length
decreasing_by
  · simp
  · have := length_next b rest
    simp only [List.length_cons]
    omega

end TokenGate.Json.Lexer
