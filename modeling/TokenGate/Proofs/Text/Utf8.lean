import TokenGate.Proofs.Results
import TokenGate.Text.Octets
import Mathlib.Tactic.SplitIfs

/-! # UTF-8 that is read back

Every text is read back from its octets (`decode_encode`), since every character is read back from
the front of them (`decodeFrom_encodeChar`), and from no others (`eq_encode_of_decode`). A character
takes one to four octets, and the octets of a character outside ASCII are all outside ASCII
(`le_of_mem_encodeChar`). Texts are in the order of their octets (`encode_lt`). -/

/-! ## Octets of characters -/

namespace TokenGate.Proofs.Text.Utf8

open TokenGate.Text.Utf8 TokenGate.Proofs.Results

/-! ### Octets -/

theorem toNat_octet {n : Nat} (h : n < 256) : (UInt8.ofNat n).toNat = n := by
  rw [UInt8.toNat_ofNat']
  exact Nat.mod_eq_of_lt h

theorem toNat_char (c : Char) : c.toNat < 0xD800 ∨ 0xDFFF < c.toNat ∧ c.toNat < 0x110000 := c.valid

theorem between_iff {low high b : UInt8} :
    (low ≤ b && b ≤ high) = true ↔ low.toNat ≤ b.toNat ∧ b.toNat ≤ high.toNat := by
  rw [Bool.and_eq_true, decide_eq_true_eq, decide_eq_true_eq, UInt8.le_iff_toNat_le,
    UInt8.le_iff_toNat_le]

theorem isTail_iff {b : UInt8} : isTail b = true ↔ 0x80 ≤ b.toNat ∧ b.toNat ≤ 0xBF := between_iff

theorem lt_ascii_iff {b : UInt8} : b < 0x80 ↔ b.toNat < 0x80 := UInt8.lt_iff_toNat_lt

theorem lead_iff (b : UInt8) :
    ((0xC2 ≤ b && b ≤ 0xDF) = true ↔ 0xC2 ≤ b.toNat ∧ b.toNat ≤ 0xDF) ∧
      ((0xE0 ≤ b && b ≤ 0xEF) = true ↔ 0xE0 ≤ b.toNat ∧ b.toNat ≤ 0xEF) ∧
      ((0xF0 ≤ b && b ≤ 0xF4) = true ↔ 0xF0 ≤ b.toNat ∧ b.toNat ≤ 0xF4) :=
  ⟨between_iff, between_iff, between_iff⟩

theorem isSecondOfThree_iff {a b : UInt8} : isSecondOfThree a b = true ↔
    0x80 ≤ b.toNat ∧ b.toNat ≤ 0xBF ∧ (a.toNat = 0xE0 → 0xA0 ≤ b.toNat) ∧
      (a.toNat = 0xED → b.toNat ≤ 0x9F) := by
  unfold isSecondOfThree
  simp only [← UInt8.toNat_inj, UInt8.reduceToNat]
  split_ifs
  · rw [between_iff]
    simp
    omega
  · rw [between_iff]
    simp
    omega
  · rw [isTail_iff]
    omega

theorem isSecondOfFour_iff {a b : UInt8} : isSecondOfFour a b = true ↔
    0x80 ≤ b.toNat ∧ b.toNat ≤ 0xBF ∧ (a.toNat = 0xF0 → 0x90 ≤ b.toNat) ∧
      (a.toNat = 0xF4 → b.toNat ≤ 0x8F) := by
  unfold isSecondOfFour
  simp only [← UInt8.toNat_inj, UInt8.reduceToNat]
  split_ifs
  · rw [between_iff]
    simp
    omega
  · rw [between_iff]
    simp
    omega
  · rw [isTail_iff]
    omega

theorem toNat_ascii {n : Nat} (h : n < 0x80) : (Char.ofNat n).toNat = n := by
  have hvalid : n.isValidChar := Or.inl (by omega)
  rw [Char.ofNat, dif_pos hvalid]
  rfl

theorem encodeChar_ascii {c : Char} (h : c.toNat < 0x80) : encodeChar c = [UInt8.ofNat c.toNat] := by
  rw [encodeChar]
  exact if_pos h

theorem le_of_mem_encodeChar {c : Char} (hc : 0x80 ≤ c.toNat) {b : UInt8} (hb : b ∈ encodeChar c) :
    0x80 ≤ b.toNat := by
  have hvalid := toNat_char c
  unfold encodeChar at hb
  dsimp only at hb
  rw [if_neg (by omega)] at hb
  split_ifs at hb <;> simp only [List.mem_cons, List.not_mem_nil, or_false] at hb <;>
    obtain rfl | rfl | rfl | rfl := hb <;> rw [toNat_octet (by omega)] <;> omega

/-! ### Characters -/

section Read

variable {a b c d : UInt8} {n : Nat} (start : Nat) (rest : List UInt8)

theorem decodeFrom_one (h : n < 0x80) :
    decodeFrom start (UInt8.ofNat n :: rest) = (Char.ofNat n :: ·) <$> decodeFrom (start + 1) rest := by
  have hn : (UInt8.ofNat n).toNat = n := toNat_octet (by omega)
  rw [decodeFrom.eq_def]
  dsimp only
  rw [if_pos (lt_ascii_iff.mpr (by rwa [hn])), hn]

theorem decodeFrom_two (hn : 0x80 ≤ n ∧ n < 0x800) (ha : a.toNat = 0xC0 + n / 64)
    (hb : b.toNat = 0x80 + n % 64) :
    decodeFrom start (a :: b :: rest) = (Char.ofNat n :: ·) <$> decodeFrom (start + 2) rest := by
  obtain ⟨hlead, -, -⟩ := lead_iff a
  have htail : isTail b = true := isTail_iff.mpr (by omega)
  have hvalue : (0xC0 + n / 64 - 0xC0) * 64 + (0x80 + n % 64 - 0x80) = n := by omega
  rw [decodeFrom.eq_def]
  dsimp only
  rw [if_neg (mt lt_ascii_iff.mp (by omega)), if_pos (hlead.mpr (by omega)), if_pos htail, ha, hb,
    hvalue]

theorem decodeFrom_three (hn : 0x800 ≤ n ∧ n < 0xD800 ∨ 0xDFFF < n ∧ n < 0x10000)
    (ha : a.toNat = 0xE0 + n / 4096) (hb : b.toNat = 0x80 + n / 64 % 64)
    (hc : c.toNat = 0x80 + n % 64) :
    decodeFrom start (a :: b :: c :: rest) =
      (Char.ofNat n :: ·) <$> decodeFrom (start + 3) rest := by
  obtain ⟨htwo, hlead, -⟩ := lead_iff a
  have hsecond : isSecondOfThree a b = true := isSecondOfThree_iff.mpr (by omega)
  have htail : isTail c = true := isTail_iff.mpr (by omega)
  have hvalue : (0xE0 + n / 4096 - 0xE0) * 4096 + (0x80 + n / 64 % 64 - 0x80) * 64 +
      (0x80 + n % 64 - 0x80) = n := by omega
  rw [decodeFrom.eq_def]
  dsimp only
  rw [if_neg (mt lt_ascii_iff.mp (by omega)), if_neg (mt htwo.mp (by omega)),
    if_pos (hlead.mpr (by omega)), if_pos hsecond, if_pos htail, ha, hb, hc, hvalue]

theorem decodeFrom_four (hn : 0x10000 ≤ n ∧ n < 0x110000) (ha : a.toNat = 0xF0 + n / 262144)
    (hb : b.toNat = 0x80 + n / 4096 % 64) (hc : c.toNat = 0x80 + n / 64 % 64)
    (hd : d.toNat = 0x80 + n % 64) :
    decodeFrom start (a :: b :: c :: d :: rest) =
      (Char.ofNat n :: ·) <$> decodeFrom (start + 4) rest := by
  obtain ⟨htwo, hthree, hlead⟩ := lead_iff a
  have hsecond : isSecondOfFour a b = true := isSecondOfFour_iff.mpr (by omega)
  have htail : isTail c = true := isTail_iff.mpr (by omega)
  have htail' : isTail d = true := isTail_iff.mpr (by omega)
  have hvalue : (0xF0 + n / 262144 - 0xF0) * 262144 + (0x80 + n / 4096 % 64 - 0x80) * 4096 +
      (0x80 + n / 64 % 64 - 0x80) * 64 + (0x80 + n % 64 - 0x80) = n := by omega
  rw [decodeFrom.eq_def]
  dsimp only
  rw [if_neg (mt lt_ascii_iff.mp (by omega)), if_neg (mt htwo.mp (by omega)),
    if_neg (mt hthree.mp (by omega)), if_pos (hlead.mpr (by omega)), if_pos hsecond, if_pos htail,
    if_pos htail', ha, hb, hc, hd, hvalue]

end Read

/-- **A character is read back from the front of a text.** -/
theorem decodeFrom_encodeChar (start : Nat) (c : Char) (rest : List UInt8) :
    decodeFrom start (encodeChar c ++ rest) =
      (c :: ·) <$> decodeFrom (start + (encodeChar c).length) rest := by
  have hc := toNat_char c
  have hofNat : Char.ofNat c.toNat = c := Char.ofNat_toNat c
  unfold encodeChar
  dsimp only
  generalize c.toNat = n at hc hofNat
  subst hofNat
  split_ifs with h1 h2 h3
  · exact decodeFrom_one start rest h1
  · exact decodeFrom_two start rest (by omega) (toNat_octet (by omega)) (toNat_octet (by omega))
  · exact decodeFrom_three start rest (by omega) (toNat_octet (by omega)) (toNat_octet (by omega))
      (toNat_octet (by omega))
  · exact decodeFrom_four start rest (by omega) (toNat_octet (by omega)) (toNat_octet (by omega))
      (toNat_octet (by omega)) (toNat_octet (by omega))

/-! ### Texts -/

theorem encodeChars_cons (c : Char) (cs : List Char) :
    encodeChars (c :: cs) = encodeChar c ++ encodeChars cs := List.flatMap_cons

theorem encodeChars_append (cs cs' : List Char) :
    encodeChars (cs ++ cs') = encodeChars cs ++ encodeChars cs' := List.flatMap_append

theorem encodeChars_ascii {bs : List UInt8} (h : ∀ b ∈ bs, b.toNat < 0x80) :
    encodeChars (bs.map fun b => Char.ofNat b.toNat) = bs := by
  induction bs with
  | nil => rfl
  | cons b bs ih =>
    rw [List.forall_mem_cons] at h
    have hb : (Char.ofNat b.toNat).toNat = b.toNat := toNat_ascii h.1
    rw [List.map_cons, encodeChars_cons, ih h.2, encodeChar_ascii (by rw [hb]; exact h.1), hb,
      UInt8.ofNat_toNat]
    rfl

theorem decodeFrom_encodeChars (start : Nat) (cs : List Char) :
    decodeFrom start (encodeChars cs) = .ok cs := by
  induction cs generalizing start with
  | nil => rfl
  | cons c cs ih =>
    rw [encodeChars_cons, decodeFrom_encodeChar, ih]
    rfl

/-- **A text is read back from its octets.** -/
theorem decode_encode (s : String) : decode (encode s) = .ok s := by
  rw [decode, encode, decodeFrom_encodeChars]
  exact congrArg Except.ok String.ofList_toList

section Written

variable {a b c d : UInt8}

theorem toNat_ofNat {n : Nat} (h : n < 0xD800 ∨ 0xDFFF < n ∧ n < 0x110000) :
    (Char.ofNat n).toNat = n := by
  rw [Char.ofNat, dif_pos h]
  rfl

theorem octet_of_eq {n : Nat} (h : n = b.toNat) : UInt8.ofNat n = b := by
  rw [h, UInt8.ofNat_toNat]

theorem encodeChar_one (ha : a < 0x80) : encodeChar (Char.ofNat a.toNat) = [a] := by
  have hlt := lt_ascii_iff.mp ha
  rw [encodeChar_ascii (by rwa [toNat_ascii hlt]), toNat_ascii hlt, UInt8.ofNat_toNat]

theorem encodeChar_two (ha : (0xC2 ≤ a && a ≤ 0xDF) = true) (hb : isTail b = true) :
    encodeChar (Char.ofNat ((a.toNat - 0xC0) * 64 + (b.toNat - 0x80))) = [a, b] := by
  obtain ⟨ha, ha'⟩ := (lead_iff a).1.mp ha
  obtain ⟨hb, hb'⟩ := isTail_iff.mp hb
  rw [encodeChar, toNat_ofNat (by omega)]
  rw [if_neg (by omega), if_pos (by omega), octet_of_eq (b := a) (by omega),
    octet_of_eq (b := b) (by omega)]

theorem encodeChar_three (ha : (0xE0 ≤ a && a ≤ 0xEF) = true) (hb : isSecondOfThree a b = true)
    (hc : isTail c = true) :
    encodeChar (Char.ofNat ((a.toNat - 0xE0) * 4096 + (b.toNat - 0x80) * 64 + (c.toNat - 0x80))) =
      [a, b, c] := by
  obtain ⟨ha, ha'⟩ := (lead_iff a).2.1.mp ha
  obtain ⟨hc, hc'⟩ := isTail_iff.mp hc
  obtain ⟨hb, hb', hb₁, hb₂⟩ := isSecondOfThree_iff.mp hb
  rw [encodeChar, toNat_ofNat (by omega)]
  rw [if_neg (by omega), if_neg (by omega), if_pos (by omega), octet_of_eq (b := a) (by omega),
    octet_of_eq (b := b) (by omega), octet_of_eq (b := c) (by omega)]

theorem encodeChar_four (ha : (0xF0 ≤ a && a ≤ 0xF4) = true) (hb : isSecondOfFour a b = true)
    (hc : isTail c = true) (hd : isTail d = true) :
    encodeChar (Char.ofNat ((a.toNat - 0xF0) * 262144 + (b.toNat - 0x80) * 4096 +
      (c.toNat - 0x80) * 64 + (d.toNat - 0x80))) = [a, b, c, d] := by
  obtain ⟨ha, ha'⟩ := (lead_iff a).2.2.mp ha
  obtain ⟨hc, hc'⟩ := isTail_iff.mp hc
  obtain ⟨hd, hd'⟩ := isTail_iff.mp hd
  obtain ⟨hb, hb', hb₁, hb₂⟩ := isSecondOfFour_iff.mp hb
  rw [encodeChar, toNat_ofNat (by omega)]
  rw [if_neg (by omega), if_neg (by omega), if_neg (by omega), octet_of_eq (b := a) (by omega),
    octet_of_eq (b := b) (by omega), octet_of_eq (b := c) (by omega),
    octet_of_eq (b := d) (by omega)]

theorem encodeChars_of_decodeFrom {start : Nat} {bs : List UInt8} {cs : List Char}
    (h : decodeFrom start bs = .ok cs) : bs = encodeChars cs := by
  fun_induction decodeFrom start bs generalizing cs with
  | case1 =>
    cases h
    rfl
  | case2 start a r ha ih =>
    obtain ⟨cs, hcs, rfl⟩ := map_eq_ok.mp h
    rw [encodeChars_cons, encodeChar_one ha, ← ih hcs]
    rfl
  | case4 start a _ hlead b r htail ih =>
    obtain ⟨cs, hcs, rfl⟩ := map_eq_ok.mp h
    rw [encodeChars_cons, encodeChar_two hlead htail, ← ih hcs]
    rfl
  | case8 start a _ _ hlead b hsecond c r htail ih =>
    obtain ⟨cs, hcs, rfl⟩ := map_eq_ok.mp h
    rw [encodeChars_cons, encodeChar_three hlead hsecond htail, ← ih hcs]
    rfl
  | case14 start a _ _ _ hlead b hsecond c hthird d r htail ih =>
    obtain ⟨cs, hcs, rfl⟩ := map_eq_ok.mp h
    rw [encodeChars_cons, encodeChar_four hlead hsecond hthird htail, ← ih hcs]
    rfl
  | _ => cases h

/-- **Octets that are read as a text are those of the text.** -/
theorem eq_encode_of_decode {bs : List UInt8} {s : String} (h : decode bs = .ok s) :
    bs = encode s := by
  obtain ⟨cs, hcs, rfl⟩ := map_eq_ok.mp h
  rw [encode, String.toList_ofList, encodeChars_of_decodeFrom hcs]

end Written

theorem encode_injective : Function.Injective encode := by
  intro s s' h
  have hdecode : decode (encode s) = decode (encode s') := congrArg decode h
  rw [decode_encode, decode_encode] at hdecode
  exact Except.ok.inj hdecode

theorem eq_encode_iff {bs : List UInt8} (h : ∀ b ∈ bs, b.toNat < 0x80) {s : String} :
    bs = encode s ↔ String.ofList (bs.map fun b => Char.ofNat b.toNat) = s := by
  have hbs : encode (String.ofList (bs.map fun b => Char.ofNat b.toNat)) = bs := by
    rw [encode, String.toList_ofList, encodeChars_ascii h]
  constructor
  · intro hs
    exact encode_injective (hbs.trans hs)
  · rintro rfl
    exact hbs.symm

/-! ### The order of texts -/

section Order

variable {m n : Nat} {bs bs' : List UInt8}

theorem octets_lt (hm : m < 256) (hn : n < 256) (h : m < n ∨ m = n ∧ bs < bs') :
    UInt8.ofNat m :: bs < UInt8.ofNat n :: bs' := by
  rw [List.cons_lt_cons_iff, UInt8.lt_iff_toNat_lt, ← UInt8.toNat_inj, toNat_octet hm, toNat_octet hn]
  exact h

theorem tails_lt (h : m % 64 < n % 64 ∨ m % 64 = n % 64 ∧ bs < bs') :
    UInt8.ofNat (0x80 + m % 64) :: bs < UInt8.ofNat (0x80 + n % 64) :: bs' :=
  octets_lt (by omega) (by omega) (h.imp (by omega) fun ⟨hdigit, hrest⟩ => ⟨by omega, hrest⟩)

/-- **A smaller character has smaller octets**, whatever follows. -/
theorem encodeChar_lt {c c' : Char} (h : c < c') (bs bs' : List UInt8) :
    encodeChar c ++ bs < encodeChar c' ++ bs' := by
  have hlt : c.toNat < c'.toNat := h
  have hc := toNat_char c
  have hc' := toNat_char c'
  unfold encodeChar
  dsimp only
  generalize c.toNat = n at hlt hc
  generalize c'.toNat = n' at hlt hc'
  split_ifs <;> simp only [List.cons_append, List.nil_append]
  -- Characters that take different numbers of octets already differ in the leading one.
  all_goals try exact octets_lt (by omega) (by omega) (Or.inl (by omega))
  · obtain hlead | ⟨hlead, hlast⟩ : n / 64 < n' / 64 ∨ n / 64 = n' / 64 ∧ n % 64 < n' % 64 := by
      omega
    · exact octets_lt (by omega) (by omega) (Or.inl (by omega))
    · exact octets_lt (by omega) (by omega) (Or.inr ⟨by omega, tails_lt (Or.inl hlast)⟩)
  · obtain hlead | ⟨hlead, hrest⟩ : n / 4096 < n' / 4096 ∨ n / 4096 = n' / 4096 ∧
        (n / 64 % 64 < n' / 64 % 64 ∨ n / 64 % 64 = n' / 64 % 64 ∧ n % 64 < n' % 64) := by
      omega
    · exact octets_lt (by omega) (by omega) (Or.inl (by omega))
    · refine octets_lt (by omega) (by omega) (Or.inr ⟨by omega, tails_lt ?_⟩)
      exact hrest.imp_right fun ⟨hdigit, hlast⟩ => ⟨hdigit, tails_lt (Or.inl hlast)⟩
  · obtain hlead | ⟨hlead, hrest⟩ : n / 262144 < n' / 262144 ∨ n / 262144 = n' / 262144 ∧
        (n / 4096 % 64 < n' / 4096 % 64 ∨ n / 4096 % 64 = n' / 4096 % 64 ∧
          (n / 64 % 64 < n' / 64 % 64 ∨ n / 64 % 64 = n' / 64 % 64 ∧ n % 64 < n' % 64)) := by
      omega
    · exact octets_lt (by omega) (by omega) (Or.inl (by omega))
    · refine octets_lt (by omega) (by omega) (Or.inr ⟨by omega, tails_lt ?_⟩)
      refine hrest.imp_right fun ⟨hdigit, hrest⟩ => ⟨hdigit, tails_lt ?_⟩
      exact hrest.imp_right fun ⟨hdigit, hlast⟩ => ⟨hdigit, tails_lt (Or.inl hlast)⟩

theorem encodeChar_ne_nil (c : Char) : encodeChar c ≠ [] := by
  unfold encodeChar
  dsimp only
  split_ifs <;> exact List.cons_ne_nil _ _

theorem encodeChars_lt {cs cs' : List Char} (h : cs < cs') : encodeChars cs < encodeChars cs' := by
  induction h with
  | @nil c cs =>
    obtain ⟨b, bs, hbs⟩ := List.exists_cons_of_ne_nil (encodeChar_ne_nil c)
    rw [encodeChars_cons, hbs]
    exact List.nil_lt_cons _ _
  | cons h ih =>
    rw [encodeChars_cons, encodeChars_cons]
    exact List.append_left_lt ih
  | rel h =>
    rw [encodeChars_cons, encodeChars_cons]
    exact encodeChar_lt h _ _

/-- **Texts are in the order of their octets.** -/
theorem encode_lt {s t : String} (h : s < t) : encode s < encode t := encodeChars_lt h

end Order

end TokenGate.Proofs.Text.Utf8

/-! ## Decimal digits of a natural

The characters of a decimal are digits (`isDigit_of_mem_toDigits`), of which the first is a zero for
zero only (`head?_toDigits`). What digits denote is not less than what any of them in front denote
(`le_ofDigitChars`). -/

namespace TokenGate.Proofs.Text.Digits

/-- A character is a decimal digit. -/
def IsDigit (c : Char) : Prop := 48 ≤ c.toNat ∧ c.toNat ≤ 57

theorem isDigit_of_mem_toDigits {n : Nat} {c : Char} (hc : c ∈ Nat.toDigits 10 n) : IsDigit c := by
  have hdigit : c.isDigit = true := Nat.isDigit_of_mem_toDigits (by decide) (by decide) hc
  simpa [IsDigit, Char.isDigit, UInt32.le_iff_toNat_le] using hdigit

theorem head?_toDigits {n : Nat} (h : (Nat.toDigits 10 n).head? = some '0') : n = 0 := by
  induction n using Nat.base_induction 10 (by decide) with
  | single m hm =>
    revert h
    revert m
    decide
  | digit m k hk hm ih =>
    rw [← Nat.toDigits_append_toDigits (by decide) hm hk, List.head?_append,
      Option.or_of_isSome (by simp)] at h
    exact absurd (ih h) (by omega)

theorem le_ofDigitChars (cs : List Char) (n : Nat) : n ≤ Nat.ofDigitChars 10 cs n := by
  induction cs generalizing n with
  | nil => exact Nat.le_of_eq Nat.ofDigitChars_nil.symm
  | cons c cs ih =>
    rw [Nat.ofDigitChars_cons]
    exact Nat.le_trans (by omega) (ih _)

end TokenGate.Proofs.Text.Digits
