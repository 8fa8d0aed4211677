import Mathlib.Tactic.SplitIfs
import TokenGate.Json.Basic
import TokenGate.Json.Lexer
import TokenGate.Proofs.Text.Utf8

/-! # Strings that are read back

A character stands in a printed string for itself, or as an escape of two or six characters. Either
way the scan adds its octets to the content (`scan_escape`), and the quote that ends the string is
the first that is not escaped. So a printed string is scanned to its end and has the content that
was printed (`scan_quoted`). -/

namespace TokenGate.Proofs.Json.Literals

open TokenGate.Json TokenGate.Json.Literal TokenGate.Text.Utf8 TokenGate.Proofs.Text.Utf8
open TokenGate.Text.Hexadecimal (lowerDigit)

theorem push_push (s : Scan) (bs bs' : List UInt8) : (s.push bs).push bs' = s.push (bs ++ bs') := by
  simp [Scan.push]

/-! ### One character -/

/-- An octet that stands for itself in a string. -/
def IsPlain (b : UInt8) : Prop := b ≠ 0x22 ∧ ¬ b < 0x20 ∧ b ≠ 0x5C

theorem scan_plain {b : UInt8} (h : IsPlain b) (s : Scan) (rest : List UInt8) :
    scan s (b :: rest) = scan (s.push [b]) rest := by
  obtain ⟨hquote, hcontrol, hescape⟩ := h
  rw [scan.eq_def]
  dsimp only
  rw [if_neg hquote, if_neg hcontrol, if_pos hescape]

theorem scan_plains {bs : List UInt8} (h : ∀ b ∈ bs, IsPlain b) (s : Scan) (rest : List UInt8) :
    scan s (bs ++ rest) = scan (s.push bs) rest := by
  induction bs generalizing s with
  | nil => rfl
  | cons b bs ih =>
    obtain ⟨hb, hbs⟩ := List.forall_mem_cons.mp h
    rw [List.cons_append, scan_plain hb, ih hbs, push_push]
    rfl

theorem scan_simpleEscape {e b : UInt8} (he : e ≠ 0x75) (h : simpleEscape? e = some b) (s : Scan)
    (rest : List UInt8) : scan s (0x5C :: e :: rest) = scan (s.push [b]) rest := by
  rw [scan.eq_def]
  dsimp only
  rw [if_neg (by decide), if_neg (by decide), if_neg (by decide), if_neg he, h]

theorem scan_hexEscape {a b c d : UInt8} {n : Nat} (h : hexValue? a b c d = some n) (hn : n < 0xD800)
    {s : Scan} (hs : s.high = none) (rest : List UInt8) :
    scan s (0x5C :: 0x75 :: a :: b :: c :: d :: rest) =
      scan (s.push (encodeChar (Char.ofNat n))) rest := by
  have htrailing : isTrailing n = false := by
    unfold isTrailing
    simp
    omega
  have hleading : isLeading n = false := by
    unfold isLeading
    simp
    omega
  rw [scan.eq_def]
  dsimp only
  rw [if_neg (by decide), if_neg (by decide), if_neg (by decide), if_pos rfl, h]
  dsimp only
  rw [Scan.escape, hs, htrailing, hleading]
  rfl

theorem hexValue?_control : ∀ n < 0x20, hexValue? 0x30 0x30
    (UInt8.ofNat (lowerDigit (n / 16)).toNat) (UInt8.ofNat (lowerDigit (n % 16)).toNat) = some n := by
  decide

theorem ascii_lowerDigit : ∀ n < 16, (lowerDigit n).toNat < 0x80 := by
  decide

theorem isPlain_of_toNat {b : UInt8} (hcontrol : 0x20 ≤ b.toNat) (hquote : b.toNat ≠ 0x22)
    (hescape : b.toNat ≠ 0x5C) : IsPlain b := by
  refine ⟨fun h => hquote (by rw [h]; rfl), fun h => ?_, fun h => hescape (by rw [h]; rfl)⟩
  exact absurd (UInt8.lt_iff_toNat_lt.mp h) (Nat.not_lt.mpr hcontrol)

theorem isPlain_of_char {c : Char} (hcontrol : 0x20 ≤ c.toNat) (hquote : c ≠ '"') (hescape : c ≠ '\\') :
    ∀ b ∈ encodeChar c, IsPlain b := by
  intro b hb
  rcases Nat.lt_or_ge c.toNat 0x80 with hc | hc
  · rw [encodeChar_ascii hc, List.mem_singleton] at hb
    have hb : b.toNat = c.toNat := by
      rw [hb]
      exact toNat_octet (by omega)
    refine isPlain_of_toNat (by omega) ?_ ?_
    · rw [hb]
      exact fun h => hquote (Char.toNat_inj.mp h)
    · rw [hb]
      exact fun h => hescape (Char.toNat_inj.mp h)
  · have hb := le_of_mem_encodeChar hc hb
    exact isPlain_of_toNat (by omega) (by omega) (by omega)

/-- **A character adds its octets to the content**, escaped or not. -/
theorem scan_escape (c : Char) {s : Scan} (hs : s.high = none) (rest : List UInt8) :
    scan s (encodeChars (escape c) ++ rest) = scan (s.push (encodeChar c)) rest := by
  unfold escape
  split_ifs with hquote hescape h08 h0C h0A h0D h09 hcontrol
  · subst hquote
    exact scan_simpleEscape (by decide) rfl s rest
  · subst hescape
    exact scan_simpleEscape (by decide) rfl s rest
  · obtain rfl : c = '\x08' := Char.toNat_inj.mp h08
    exact scan_simpleEscape (by decide) rfl s rest
  · obtain rfl : c = '\x0C' := Char.toNat_inj.mp h0C
    exact scan_simpleEscape (by decide) rfl s rest
  · obtain rfl : c = '\n' := Char.toNat_inj.mp h0A
    exact scan_simpleEscape (by decide) rfl s rest
  · obtain rfl : c = '\r' := Char.toNat_inj.mp h0D
    exact scan_simpleEscape (by decide) rfl s rest
  · obtain rfl : c = '\t' := Char.toNat_inj.mp h09
    exact scan_simpleEscape (by decide) rfl s rest
  · -- Any other control character is written by its code point.
    have hhigh := encodeChar_ascii (ascii_lowerDigit (c.toNat / 16) (by omega))
    have hlow := encodeChar_ascii (ascii_lowerDigit (c.toNat % 16) (by omega))
    have hscan := scan_hexEscape (hexValue?_control c.toNat hcontrol) (by omega) hs rest
    rw [Char.ofNat_toNat] at hscan
    rw [← hscan]
    simp only [encodeChars_cons, hhigh, hlow]
    rfl
  · rw [encodeChars, List.flatMap_singleton]
    exact scan_plains (isPlain_of_char (by omega) hquote hescape) s rest

/-! ### Whole strings -/

theorem scan_escapes (cs : List Char) {s : Scan} (hs : s.high = none) (rest : List UInt8) :
    scan s (encodeChars (cs.flatMap escape) ++ rest) = scan (s.push (encodeChars cs)) rest := by
  induction cs generalizing s with
  | nil => rfl
  | cons c cs ih =>
    have hpush : (s.push (encodeChar c)).high = none := hs
    rw [List.flatMap_cons, encodeChars_append, List.append_assoc, scan_escape c hs, ih hpush, push_push,
      encodeChars_cons]

/-- **A printed string is scanned to its end**, and has the content that was printed. -/
theorem scan_quoted (s : String) (rest : List UInt8) :
    scan .start (encodeChars (s.toList.flatMap escape) ++ 0x22 :: rest) = (⟨.ok s, none⟩, rest) := by
  have hcontent : (Scan.start.push (encode s)).content.reverse = encode s := by
    simp [Scan.push, Scan.start]
  have hclose : (Scan.start.push (encode s)).close = ⟨.ok s, none⟩ := by
    have hfault : (Scan.start.push (encode s)).fault = none := rfl
    rw [Scan.close, hfault, hcontent, decode_encode]
  rw [scan_escapes s.toList rfl, scan.eq_def]
  dsimp only
  rw [if_pos rfl]
  exact congrArg (·, rest) hclose

/-! ### The written form -/

/-- A piece of a string: an octet of its content, or half a character of two octets or more. -/
inductive Piece
  | octet (b : UInt8)
  | unit (n : Nat)

/-- How pieces are written between the quotes: an octet for itself or as an escape of two
characters, and a unit by four hexadecimal digits. -/
inductive Spelled : List Piece → List UInt8 → Prop
  | nil : Spelled [] []
  | plain {b : UInt8} {ps : List Piece} {bs : List UInt8} (hb : IsPlain b) (h : Spelled ps bs) :
    Spelled (.octet b :: ps) (b :: bs)
  | escape {e b : UInt8} {ps : List Piece} {bs : List UInt8} (he : simpleEscape? e = some b)
    (h : Spelled ps bs) : Spelled (.octet b :: ps) (0x5C :: e :: bs)
  | unit {a b c d : UInt8} {n : Nat} {ps : List Piece} {bs : List UInt8}
    (hn : hexValue? a b c d = some n) (h : Spelled ps bs) :
    Spelled (.unit n :: ps) (0x5C :: 0x75 :: a :: b :: c :: d :: bs)

/-- The octets that pieces stand for: a unit is a character by itself, or one of two surrogates that
are a character together. -/
inductive Content : List Piece → List UInt8 → Prop
  | nil : Content [] []
  | octet (b : UInt8) {ps : List Piece} {bs : List UInt8} (h : Content ps bs) :
    Content (.octet b :: ps) (b :: bs)
  | unit {n : Nat} (hleading : isLeading n = false) (htrailing : isTrailing n = false)
    {ps : List Piece} {bs : List UInt8} (h : Content ps bs) :
    Content (.unit n :: ps) (encodeChar (Char.ofNat n) ++ bs)
  | pair {high low : Nat} (hhigh : isLeading high = true) (hlow : isTrailing low = true)
    {ps : List Piece} {bs : List UInt8} (h : Content ps bs) :
    Content (.unit high :: .unit low :: ps) (encodeChar (joinSurrogates high low) ++ bs)

/-- A string is written between quotes as pieces, which stand for its content if it has one. -/
inductive IsLiteral (l : Literal) : List UInt8 → Prop
  | quoted {ps : List Piece} {body : List UInt8} (hbody : Spelled ps body)
    (hcontent : ∀ s, l.content = .ok s → Content ps (encode s)) : IsLiteral l (0x22 :: (body ++ [0x22]))

/-! ### What the scan takes -/

/-- The unit that waits for the other half of its character. -/
def waiting (s : Scan) : List Piece := s.high.toList.map .unit

/-- A unit waits only where the other half comes next. -/
def Paired (s : Scan) (bs : List UInt8) : Prop :=
  ∀ high ∈ s.high, isLeading high = true ∧ ∃ low, trailingHalf bs = .ok low

/-- What a scan takes from here on: pieces up to a closing quote, which are the rest of the
content. -/
def Takes (s : Scan) (bs : List UInt8) (r : Literal × List UInt8) : Prop :=
  ∃ ps body, Spelled ps body ∧ bs = body ++ 0x22 :: r.2 ∧
    ∀ t, r.1.content = .ok t → s.fault = none ∧
      ∃ cs, Content (waiting s ++ ps) cs ∧ encode t = s.content.reverse ++ cs

theorem not_waiting {s : Scan} {bs : List UInt8} (h : Paired s bs)
    (hbs : ∀ low, trailingHalf bs ≠ .ok low) : s.high = none := by
  refine Option.eq_none_iff_forall_not_mem.mpr fun high hhigh => ?_
  obtain ⟨-, low, hlow⟩ := h high hhigh
  exact hbs low hlow

theorem trailingHalf_plain {b : UInt8} (hb : b ≠ 0x5C) (rest : List UInt8) (low : Nat) :
    trailingHalf (b :: rest) ≠ .ok low := by
  rw [trailingHalf.eq_def]
  dsimp only
  rw [if_pos hb]
  simp

theorem trailingHalf_escape {e : UInt8} (he : e ≠ 0x75) (rest : List UInt8) (low : Nat) :
    trailingHalf (0x5C :: e :: rest) ≠ .ok low := by
  rw [trailingHalf.eq_def]
  dsimp only
  rw [if_neg (by decide), if_pos he]
  simp

theorem paired_push {s : Scan} (h : s.high = none) (bs rest : List UInt8) :
    Paired (s.push bs) rest := by
  intro high hhigh
  rw [Scan.push, h] at hhigh
  cases hhigh

theorem reverse_push (s : Scan) (bs : List UInt8) :
    (s.push bs).content.reverse = s.content.reverse ++ bs := by
  rw [Scan.push, List.reverse_append, List.reverse_reverse]

theorem takes_close {s : Scan} {rest : List UInt8} (h : Paired s (0x22 :: rest)) :
    Takes s (0x22 :: rest) (s.close, rest) := by
  have hhigh := not_waiting h (trailingHalf_plain (by decide) rest)
  refine ⟨[], [], .nil, rfl, fun t ht => ?_⟩
  dsimp only at ht
  unfold Scan.close at ht
  cases hfault : s.fault with
  | some f =>
    rw [hfault] at ht
    cases ht
  | none =>
    rw [hfault] at ht
    cases hdecode : TokenGate.Text.Utf8.decode s.content.reverse with
    | error f =>
      rw [hdecode] at ht
      cases ht
    | ok t' =>
      rw [hdecode] at ht
      cases ht
      refine ⟨rfl, [], ?_, ?_⟩
      · rw [waiting, hhigh]
        exact .nil
      · rw [List.append_nil, eq_encode_of_decode hdecode]

theorem takes_octet {s : Scan} {b : UInt8} {rest : List UInt8} {r : Literal × List UInt8}
    (hhigh : s.high = none) (h : Takes (s.push [b]) rest r) (front : List UInt8)
    (hfront : ∀ ps bs, Spelled ps bs → Spelled (.octet b :: ps) (front ++ bs)) :
    Takes s (front ++ rest) r := by
  obtain ⟨ps, body, hbody, rfl, hcontent⟩ := h
  refine ⟨.octet b :: ps, front ++ body, hfront _ _ hbody, by rw [List.append_assoc], fun t ht => ?_⟩
  obtain ⟨hfault, cs, hcs, ht⟩ := hcontent t ht
  have hnone : waiting s = [] := by rw [waiting, hhigh]; rfl
  have hnone' : waiting (s.push [b]) = [] := hnone
  rw [hnone', List.nil_append] at hcs
  refine ⟨hfault, b :: cs, ?_, ?_⟩
  · rw [hnone]
    exact .octet b hcs
  · rw [ht, reverse_push, List.append_assoc, List.singleton_append]

/-- What the scan knows after a unit has been read: the content so far and the unit that waits. -/
structure Follows (s : Scan) (n : Nat) (s' : Scan) : Prop where
  fault : s.fault = none
  content : ∀ ps cs, Content (waiting s' ++ ps) cs → ∃ cs', Content (waiting s ++ .unit n :: ps) cs' ∧
    s'.content.reverse ++ cs = s.content.reverse ++ cs'

theorem isTrailing_of_trailingHalf {a b c d : UInt8} {n low : Nat} {rest : List UInt8}
    (hn : hexValue? a b c d = some n)
    (h : trailingHalf (0x5C :: 0x75 :: a :: b :: c :: d :: rest) = .ok low) : isTrailing n = true := by
  simp only [trailingHalf, ne_eq, not_true_eq_false, if_false, hn] at h
  split_ifs at h with htrailing
  exact htrailing

theorem fault_fail (s : Scan) (f : TextFault) : (s.fail f).fault ≠ none := by
  rw [Scan.fail]
  cases s.fault <;> simp

theorem follows_push {s : Scan} {n : Nat} {bs : List UInt8}
    (h : ∀ ps cs, Content ps cs → Content (waiting s ++ .unit n :: ps) (bs ++ cs)) :
    ({ s.push bs with high := none } : Scan).fault = none →
      Follows s n { s.push bs with high := none } := by
  intro hfault
  refine ⟨hfault, fun ps cs hcs => ⟨bs ++ cs, h ps cs hcs, ?_⟩⟩
  rw [reverse_push, List.append_assoc]

theorem escape_of_waiting {s : Scan} {high : Nat} (hs : s.high = some high) (n : Nat)
    (rest : List UInt8) : s.escape n rest =
      { s.push (encodeChar (joinSurrogates high n)) with high := none } := by
  rw [Scan.escape, hs]

theorem push_of_none {s : Scan} (hs : s.high = none) (bs : List UInt8) :
    s.push bs = { s.push bs with high := none } := by
  rw [Scan.push, hs]

/-- **One unit**: it is a character, waits for its other half, or is the half that was waited
for. -/
theorem follows_escape {s : Scan} {a b c d : UInt8} {n : Nat} {rest : List UInt8}
    (hn : hexValue? a b c d = some n)
    (h : Paired s (0x5C :: 0x75 :: a :: b :: c :: d :: rest)) :
    Paired (s.escape n rest) rest ∧
      ((s.escape n rest).fault = none → Follows s n (s.escape n rest)) := by
  have hpush : ∀ bs, Paired { s.push bs with high := none } rest :=
    fun bs high hhigh => by cases hhigh
  have hfail : ∀ f, Paired (s.fail f) rest ∧ ((s.fail f).fault = none → Follows s n (s.fail f)) :=
    fun f => ⟨fun high hhigh => (by cases hhigh), fun hf => absurd hf (fault_fail s f)⟩
  cases hs : s.high with
  | some high =>
    obtain ⟨hleading, low, hlow⟩ := h high hs
    have hpair : ∀ ps cs, Content ps cs → Content (waiting s ++ .unit n :: ps)
        (encodeChar (joinSurrogates high n) ++ cs) := by
      intro ps cs hcs
      rw [waiting, hs]
      exact .pair hleading (isTrailing_of_trailingHalf hn hlow) hcs
    rw [escape_of_waiting hs]
    exact ⟨hpush _, follows_push hpair⟩
  | none =>
    have hwaiting : waiting s = [] := by rw [waiting, hs]; rfl
    have hunit : isLeading n = false → isTrailing n = false → ∀ ps cs, Content ps cs →
        Content (waiting s ++ .unit n :: ps) (encodeChar (Char.ofNat n) ++ cs) := by
      intro hleading htrailing ps cs hcs
      rw [hwaiting]
      exact .unit hleading htrailing hcs
    rw [Scan.escape, hs]
    dsimp only
    split_ifs with htrailing hleading
    · exact hfail _
    · split
      · rename_i low hlow
        refine ⟨?_, fun hf => ⟨hf, fun ps cs hcs => ⟨cs, hwaiting ▸ hcs, rfl⟩⟩⟩
        rintro _ ⟨⟩
        exact ⟨hleading, low, hlow⟩
      · exact hfail _
    · rw [push_of_none hs]
      exact ⟨hpush _, follows_push (hunit (by simpa using hleading) (by simpa using htrailing))⟩

theorem takes_unit {s s' : Scan} {a b c d : UInt8} {n : Nat} {rest : List UInt8}
    {r : Literal × List UInt8} (hn : hexValue? a b c d = some n)
    (hfollows : s'.fault = none → Follows s n s') (h : Takes s' rest r) :
    Takes s (0x5C :: 0x75 :: a :: b :: c :: d :: rest) r := by
  obtain ⟨ps, body, hbody, rfl, hcontent⟩ := h
  refine ⟨.unit n :: ps, _, .unit hn hbody, rfl, fun t ht => ?_⟩
  obtain ⟨hfault, cs, hcs, ht⟩ := hcontent t ht
  obtain ⟨hfault, hfollows⟩ := hfollows hfault
  obtain ⟨cs', hcs', heq⟩ := hfollows ps cs hcs
  exact ⟨hfault, cs', hcs', ht.trans heq⟩

/-- **A scan that can pass over a string takes pieces up to its closing quote.** -/
theorem takes_scan (s : Scan) (bs : List UInt8) (h : Paired s bs)
    (hpass : (scan s bs).1.blocked = none) : Takes s bs (scan s bs) := by
  fun_induction scan s bs with
  | case2 s rest => exact takes_close h
  | case4 s b rest hquote hcontrol hescape ih =>
    have hhigh := not_waiting h (trailingHalf_plain hescape rest)
    exact takes_octet hhigh (ih (paired_push hhigh _ _) hpass) [b]
      fun _ _ hps => .plain ⟨hquote, hcontrol, hescape⟩ hps
  | case6 s u _ _ hescape a b c d rest n hn ih =>
    obtain rfl := Decidable.not_not.mp hescape
    obtain ⟨hpaired, hfollows⟩ := follows_escape hn h
    exact takes_unit hn hfollows (ih hpaired hpass)
  | case9 s u _ _ hescape e rest he b hb ih =>
    obtain rfl := Decidable.not_not.mp hescape
    have hhigh := not_waiting h (trailingHalf_escape he rest)
    exact takes_octet hhigh (ih (paired_push hhigh _ _) hpass) [0x5C, e]
      fun _ _ hps => .escape hb hps
  | _ => cases hpass

/-- **A string that can be passed over is a literal.** -/
theorem isLiteral_of_scan {bs : List UInt8} (hpass : (scan .start bs).1.blocked = none) :
    ∃ front, IsLiteral (scan .start bs).1 (0x22 :: front) ∧ bs = front ++ (scan .start bs).2 := by
  have hstart : Paired .start bs := fun high hhigh => by cases hhigh
  obtain ⟨ps, body, hbody, hbs, hcontent⟩ := takes_scan .start bs hstart hpass
  refine ⟨body ++ [0x22], .quoted hbody fun s hs => ?_, by rw [List.append_assoc]; exact hbs⟩
  obtain ⟨-, cs, hcs, hs⟩ := hcontent s hs
  rw [hs]
  exact hcs

end TokenGate.Proofs.Json.Literals
