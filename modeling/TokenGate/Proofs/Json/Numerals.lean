import Mathlib.Tactic.SplitIfs
import TokenGate.Json.Token
import TokenGate.Proofs.Results
import TokenGate.Proofs.Text.Utf8

/-! # Numerals that are taken apart

Behind its minus sign a numeral is an integer part, a fraction or none, and an exponent or none
(`IsUnsigned`). The scan takes a numeral and nothing else (`isUnsigned_of_scan`). Where a mark of an
array or an object follows, or nothing, it takes all of the numeral (`scan_of_isUnsigned`).

A natural is printed with its decimal digits. They are taken for an integer part (`scan_toDigits`),
and the numeral has the value that was printed if that fits into 64 bits (`value_of_natural`,
`value_of_negative`). -/

namespace TokenGate.Proofs.Json.Numerals

open TokenGate.Json TokenGate.Json.Numeral TokenGate.Text.Utf8 TokenGate.Proofs.Results
open TokenGate.Proofs.Text.Digits TokenGate.Proofs.Text.Utf8

/-! ### The written form -/

/-- Octets that are digits, at least one. -/
def IsDigits (bs : List UInt8) : Prop := bs ≠ [] ∧ ∀ b ∈ bs, isDigit b = true

/-- An integer part: a zero alone, or digits that do not start with one. -/
def IsWhole (bs : List UInt8) : Prop := IsDigits bs ∧ (bs.head? = some 0x30 → bs.length = 1)

/-- A fraction with its point, or nothing. -/
inductive IsFraction : List UInt8 → Prop
  | none : IsFraction []
  | some {ds : List UInt8} (h : IsDigits ds) : IsFraction (0x2E :: ds)

/-- An exponent with its mark and its sign, or nothing. -/
inductive IsExponent : List UInt8 → Prop
  | none : IsExponent []
  | some {mark : UInt8} {sign ds : List UInt8} (hmark : mark = 0x65 ∨ mark = 0x45)
    (hsign : sign = [] ∨ sign = [0x2B] ∨ sign = [0x2D]) (h : IsDigits ds) :
    IsExponent (mark :: (sign ++ ds))

/-- A numeral without its minus sign. -/
inductive IsUnsigned : List UInt8 → Prop
  | parts {whole fraction exponent : List UInt8} (hwhole : IsWhole whole)
    (hfraction : IsFraction fraction) (hexponent : IsExponent exponent) :
    IsUnsigned (whole ++ (fraction ++ exponent))

/-- A numeral. -/
inductive IsNumeral : List UInt8 → Prop
  | unsigned {bs : List UInt8} (h : IsUnsigned bs) : IsNumeral bs
  | negative {bs : List UInt8} (h : IsUnsigned bs) : IsNumeral (0x2D :: bs)

theorem exists_digit_of_isUnsigned {bs : List UInt8} (h : IsUnsigned bs) :
    ∃ b rest, bs = b :: rest ∧ isDigit b = true := by
  cases h with
  | @parts whole fraction exponent hwhole =>
    obtain ⟨b, ds, rfl⟩ := List.exists_cons_of_ne_nil hwhole.1.1
    exact ⟨b, ds ++ (fraction ++ exponent), rfl, hwhole.1.2 b List.mem_cons_self⟩

/-- A text ends, or goes on with a mark that ends a value. -/
def Ends (rest : List UInt8) : Prop := ∀ b ∈ rest.head?, b = 0x2C ∨ b = 0x5D ∨ b = 0x7D

/-- A text does not go on with a digit. -/
def Stops (rest : List UInt8) : Prop := ∀ b ∈ rest.head?, isDigit b = false

theorem stops_of_ends {rest : List UInt8} (h : Ends rest) : Stops rest := by
  intro b hb
  rcases h b hb with rfl | rfl | rfl <;> decide

theorem stops_cons {b : UInt8} (h : isDigit b = false) (rest : List UInt8) : Stops (b :: rest) := by
  rintro _ ⟨⟩
  exact h

/-! ### What the scan takes -/

theorem spanDigits_eq (bs : List UInt8) : ∃ ds, (∀ b ∈ ds, isDigit b = true) ∧
    bs = ds ++ (spanDigits bs).2 ∧ (spanDigits bs).1 = ds.map digit := by
  induction bs with
  | nil => exact ⟨[], by simp, rfl, rfl⟩
  | cons b bs ih =>
    rw [spanDigits]
    cases hb : isDigit b with
    | false => exact ⟨[], by simp, rfl, rfl⟩
    | true =>
      obtain ⟨ds, hds, hbs, hvalues⟩ := ih
      exact ⟨b :: ds, List.forall_mem_cons.mpr ⟨hb, hds⟩, congrArg (b :: ·) hbs,
        congrArg (digit b :: ·) hvalues⟩

theorem isDigits_of_scanDigits {bs : List UInt8} {r : List Nat × List UInt8}
    (h : scanDigits bs = .ok r) : ∃ ds, IsDigits ds ∧ bs = ds ++ r.2 ∧ r.1 = ds.map digit := by
  obtain ⟨ds, hds, hbs, hvalues⟩ := spanDigits_eq bs
  unfold scanDigits at h
  split at h
  · cases h
  · cases h
  · rename_i d values after hspan
    rw [hspan] at hbs hvalues
    cases h
    refine ⟨ds, ⟨?_, hds⟩, hbs, hvalues⟩
    rintro rfl
    cases hvalues

theorem isWhole_of_scanWhole {bs : List UInt8} {r : List Nat × List UInt8}
    (h : scanWhole bs = .ok r) : ∃ whole, IsWhole whole ∧ bs = whole ++ r.2 := by
  unfold scanWhole at h
  obtain ⟨⟨values, after⟩, hdigits, h⟩ := bind_eq_ok.mp h
  obtain ⟨ds, hds, hbs, rfl⟩ := isDigits_of_scanDigits hdigits
  dsimp only at h
  split_ifs at h with hzero
  cases h
  refine ⟨ds, ⟨hds, fun hhead => ?_⟩, hbs⟩
  rw [List.head?_map, List.length_map, hhead] at hzero
  exact Decidable.not_not.mp fun hlength => hzero ⟨rfl, hlength⟩

theorem isFraction_of_scanFraction {bs : List UInt8} {r : Option (List Nat) × List UInt8}
    (h : scanFraction bs = .ok r) : ∃ fraction, IsFraction fraction ∧ bs = fraction ++ r.2 := by
  unfold scanFraction at h
  split at h
  · cases h
    exact ⟨[], .none, rfl⟩
  · split_ifs at h with hpoint
    · obtain ⟨⟨values, after⟩, hdigits, h⟩ := bind_eq_ok.mp h
      obtain ⟨ds, hds, hrest, -⟩ := isDigits_of_scanDigits hdigits
      cases h
      exact ⟨_, .some hds, by rw [hpoint, hrest]; rfl⟩
    · cases h
      exact ⟨[], .none, rfl⟩

theorem spanSign_eq (bs : List UInt8) : ∃ sign, (sign = [] ∨ sign = [0x2B] ∨ sign = [0x2D]) ∧
    bs = sign ++ (spanSign bs).2 := by
  unfold spanSign
  split
  · exact ⟨[], Or.inl rfl, rfl⟩
  · split_ifs with hplus hminus
    · exact ⟨[0x2B], Or.inr (Or.inl rfl), by rw [hplus]; rfl⟩
    · exact ⟨[0x2D], Or.inr (Or.inr rfl), by rw [hminus]; rfl⟩
    · exact ⟨[], Or.inl rfl, rfl⟩

theorem isExponent_of_scanExponent {bs : List UInt8} {r : Option (Bool × List Nat) × List UInt8}
    (h : scanExponent bs = .ok r) : ∃ exponent, IsExponent exponent ∧ bs = exponent ++ r.2 := by
  unfold scanExponent at h
  split at h
  · cases h
    exact ⟨[], .none, rfl⟩
  · rename_i mark rest
    split_ifs at h with hmark
    · obtain ⟨sign, hsign, hrest⟩ := spanSign_eq rest
      obtain ⟨⟨values, after⟩, hdigits, h⟩ := bind_eq_ok.mp h
      obtain ⟨ds, hds, hafter, -⟩ := isDigits_of_scanDigits hdigits
      cases h
      refine ⟨_, .some (by simpa using hmark) hsign hds, ?_⟩
      rw [List.cons_append, List.append_assoc, ← hafter, ← hrest]
    · cases h
      exact ⟨[], .none, rfl⟩

/-- **The scan takes a numeral.** -/
theorem isUnsigned_of_scan {negative : Bool} {bs : List UInt8} {r : Parts × List UInt8}
    (h : scan negative bs = .ok r) : ∃ front, IsUnsigned front ∧ bs = front ++ r.2 := by
  unfold scan at h
  obtain ⟨⟨w, afterWhole⟩, hw, h⟩ := bind_eq_ok.mp h
  obtain ⟨⟨f, afterFraction⟩, hf, h⟩ := bind_eq_ok.mp h
  obtain ⟨⟨e, after⟩, he, h⟩ := bind_eq_ok.mp h
  cases h
  obtain ⟨whole, hwhole, rfl⟩ := isWhole_of_scanWhole hw
  obtain ⟨fraction, hfraction, hafter⟩ := isFraction_of_scanFraction hf
  obtain ⟨exponent, hexponent, hafter'⟩ := isExponent_of_scanExponent he
  refine ⟨_, .parts hwhole hfraction hexponent, ?_⟩
  dsimp only at hafter hafter' ⊢
  rw [hafter, hafter', List.append_assoc, List.append_assoc]

/-! ### What the scan finds -/

theorem spanDigits_of_stops {rest : List UInt8} (h : Stops rest) : spanDigits rest = ([], rest) := by
  cases rest with
  | nil => rfl
  | cons b rest =>
    rw [spanDigits, h b rfl]
    rfl

theorem spanDigits_append {ds : List UInt8} (hds : ∀ b ∈ ds, isDigit b = true) {rest : List UInt8}
    (h : Stops rest) : spanDigits (ds ++ rest) = (ds.map digit, rest) := by
  induction ds with
  | nil => exact spanDigits_of_stops h
  | cons b ds ih =>
    obtain ⟨hb, hds⟩ := List.forall_mem_cons.mp hds
    rw [List.cons_append, spanDigits, hb, ih hds]
    rfl

theorem scanDigits_append {ds : List UInt8} (hds : IsDigits ds) {rest : List UInt8} (h : Stops rest) :
    scanDigits (ds ++ rest) = .ok (ds.map digit, rest) := by
  obtain ⟨b, bs, rfl⟩ := List.exists_cons_of_ne_nil hds.1
  rw [scanDigits, spanDigits_append hds.2 h]
  rfl

theorem digit_eq_zero {b : UInt8} (hb : isDigit b = true) (h : digit b = 0) : b = 0x30 := by
  obtain ⟨hlow, -⟩ := between_iff.mp hb
  exact UInt8.toNat_inj.mp (Nat.le_antisymm (Nat.le_of_sub_eq_zero h) hlow)

theorem scanWhole_append {whole : List UInt8} (hwhole : IsWhole whole) {rest : List UInt8}
    (h : Stops rest) : scanWhole (whole ++ rest) = .ok (whole.map digit, rest) := by
  rw [scanWhole, scanDigits_append hwhole.1 h, ok_bind]
  refine if_neg fun ⟨hhead, hlength⟩ => hlength ?_
  rw [List.head?_map] at hhead
  obtain ⟨b, hb, hzero⟩ := Option.map_eq_some_iff.mp hhead
  obtain rfl := digit_eq_zero (hwhole.1.2 b (List.mem_of_mem_head? hb)) hzero
  rw [List.length_map, hwhole.2 hb]

theorem scanFraction_of_ends {rest : List UInt8} (h : Ends rest) :
    scanFraction rest = .ok (none, rest) := by
  cases rest with
  | nil => rfl
  | cons b rest =>
    rcases h b rfl with rfl | rfl | rfl <;> rfl

theorem scanExponent_of_ends {rest : List UInt8} (h : Ends rest) :
    scanExponent rest = .ok (none, rest) := by
  cases rest with
  | nil => rfl
  | cons b rest =>
    rcases h b rfl with rfl | rfl | rfl <;> rfl

theorem stops_of_isExponent {exponent rest : List UInt8} (he : IsExponent exponent) (h : Ends rest) :
    Stops (exponent ++ rest) := by
  cases he with
  | none => exact stops_of_ends h
  | some hmark => rcases hmark with rfl | rfl <;> exact stops_cons (by decide) _

theorem stops_of_isFraction {fraction rest : List UInt8} (hf : IsFraction fraction) (h : Stops rest) :
    Stops (fraction ++ rest) := by
  cases hf with
  | none => exact h
  | some => exact stops_cons (by decide) _

theorem scanFraction_of_isExponent {exponent rest : List UInt8} (he : IsExponent exponent)
    (h : Ends rest) : scanFraction (exponent ++ rest) = .ok (none, exponent ++ rest) := by
  cases he with
  | none => exact scanFraction_of_ends h
  | some hmark => rcases hmark with rfl | rfl <;> rfl

theorem scanFraction_append {fraction exponent : List UInt8} (hf : IsFraction fraction)
    (he : IsExponent exponent) : ∃ values, ∀ rest, Ends rest →
      scanFraction (fraction ++ (exponent ++ rest)) = .ok (values, exponent ++ rest) := by
  cases hf with
  | none =>
    refine ⟨none, fun rest h => ?_⟩
    rw [List.nil_append]
    exact scanFraction_of_isExponent he h
  | @some ds hds =>
    refine ⟨some (ds.map digit), fun rest h => ?_⟩
    rw [List.cons_append, scanFraction, if_pos rfl, scanDigits_append hds (stops_of_isExponent he h)]
    rfl

theorem spanSign_append {sign ds : List UInt8} (hsign : sign = [] ∨ sign = [0x2B] ∨ sign = [0x2D])
    (hds : IsDigits ds) (rest : List UInt8) :
    spanSign (sign ++ (ds ++ rest)) = (sign == [0x2D], ds ++ rest) := by
  rcases hsign with rfl | rfl | rfl
  · obtain ⟨b, bs, rfl⟩ := List.exists_cons_of_ne_nil hds.1
    have hb := hds.2 b List.mem_cons_self
    have hplus : b ≠ 0x2B := by
      rintro rfl
      cases hb
    have hminus : b ≠ 0x2D := by
      rintro rfl
      cases hb
    rw [List.nil_append, List.cons_append, spanSign, if_neg hplus, if_neg hminus]
    rfl
  · rfl
  · rfl

theorem scanExponent_append {exponent : List UInt8} (he : IsExponent exponent) :
    ∃ values, ∀ rest, Ends rest → scanExponent (exponent ++ rest) = .ok (values, rest) := by
  cases he with
  | none => exact ⟨none, fun rest h => scanExponent_of_ends h⟩
  | @some mark sign ds hmark hsign hds =>
    refine ⟨some (sign == [0x2D], ds.map digit), fun rest h => ?_⟩
    rw [List.cons_append, List.append_assoc, scanExponent, if_pos (by simpa using hmark),
      spanSign_append hsign hds, scanDigits_append hds (stops_of_ends h)]
    rfl

/-- **The scan of a numeral takes all of it** before the end of a value. -/
theorem scan_of_isUnsigned (negative : Bool) {bs : List UInt8} (hbs : IsUnsigned bs) :
    ∃ parts, ∀ rest, Ends rest → scan negative (bs ++ rest) = .ok (parts, rest) := by
  cases hbs with
  | @parts whole fraction exponent hwhole hfraction hexponent =>
    obtain ⟨f, hf⟩ := scanFraction_append hfraction hexponent
    obtain ⟨e, he⟩ := scanExponent_append hexponent
    refine ⟨⟨negative, whole.map digit, f, e⟩, fun rest h => ?_⟩
    have hstops := stops_of_isFraction hfraction (stops_of_isExponent hexponent h)
    rw [List.append_assoc, List.append_assoc, scan, scanWhole_append hwhole hstops, ok_bind]
    dsimp only
    rw [hf rest h, ok_bind]
    dsimp only
    rw [he rest h]
    rfl

/-! ### Decimal digits -/

theorem isDigit_octet {c : Char} (hc : IsDigit c) : isDigit (UInt8.ofNat c.toNat) = true := by
  obtain ⟨hlow, hhigh⟩ := hc
  have htoNat : (UInt8.ofNat c.toNat).toNat = c.toNat := toNat_octet (by omega)
  refine between_iff.mpr ?_
  rw [htoNat]
  exact ⟨hlow, hhigh⟩

theorem encodeChars_digits {cs : List Char} (hcs : ∀ c ∈ cs, IsDigit c) :
    encodeChars cs = cs.map fun c => UInt8.ofNat c.toNat := by
  induction cs with
  | nil => rfl
  | cons c cs ih =>
    obtain ⟨hc, hcs⟩ := List.forall_mem_cons.mp hcs
    have hascii : c.toNat < 0x80 := by
      have := hc.2
      omega
    rw [encodeChars_cons, encodeChar_ascii hascii, ih hcs]
    rfl

theorem isDigits_encodeChars {cs : List Char} (hne : cs ≠ []) (hcs : ∀ c ∈ cs, IsDigit c) :
    IsDigits (encodeChars cs) := by
  rw [encodeChars_digits hcs]
  refine ⟨by simpa using hne, fun b hb => ?_⟩
  obtain ⟨c, hc, rfl⟩ := List.mem_map.mp hb
  exact isDigit_octet (hcs c hc)

theorem isWhole_encodeChars {cs : List Char} (hne : cs ≠ []) (hcs : ∀ c ∈ cs, IsDigit c)
    (hzero : cs.head? = some '0' → cs.length = 1) : IsWhole (encodeChars cs) := by
  refine ⟨isDigits_encodeChars hne hcs, fun h => ?_⟩
  rw [encodeChars_digits hcs, List.head?_map] at h
  obtain ⟨c, hc, hoctet⟩ := Option.map_eq_some_iff.mp h
  have hbound := hcs c (List.mem_of_mem_head? hc)
  have htoNat : c.toNat = 48 := by
    have := congrArg UInt8.toNat hoctet
    rwa [toNat_octet (by have := hbound.2; omega)] at this
  obtain rfl : c = '0' := Char.toNat_inj.mp htoNat
  rw [encodeChars_digits hcs, List.length_map, hzero hc]

theorem length_toDigits {n : Nat} (h : (Nat.toDigits 10 n).head? = some '0') :
    (Nat.toDigits 10 n).length = 1 := by
  rw [head?_toDigits h]
  decide

theorem isWhole_toDigits (n : Nat) : IsWhole (encodeChars (Nat.toDigits 10 n)) :=
  isWhole_encodeChars Nat.toDigits_ne_nil (fun _ hc => isDigit_of_mem_toDigits hc) length_toDigits

theorem isDigits_toDigits (n : Nat) : IsDigits (encodeChars (Nat.toDigits 10 n)) :=
  (isWhole_toDigits n).1

/-- The values of the digits of a natural. -/
def digits (n : Nat) : List Nat := (Nat.toDigits 10 n).map fun c => c.toNat - 48

theorem map_digit_toDigits (n : Nat) : (encodeChars (Nat.toDigits 10 n)).map digit = digits n := by
  rw [encodeChars_digits fun c hc => isDigit_of_mem_toDigits hc, List.map_map]
  refine List.map_congr_left fun c hc => ?_
  have hbound := (isDigit_of_mem_toDigits hc).2
  rw [Function.comp, digit, toNat_octet (by omega)]

/-- **The scan of a natural takes its digits**, and no fraction or exponent. -/
theorem scan_toDigits (negative : Bool) (n : Nat) {rest : List UInt8} (h : Ends rest) :
    scan negative (encodeChars (Nat.toDigits 10 n) ++ rest) =
      .ok (⟨negative, digits n, none, none⟩, rest) := by
  rw [scan, scanWhole_append (isWhole_toDigits n) (stops_of_ends h), map_digit_toDigits, ok_bind]
  dsimp only
  rw [scanFraction_of_ends h, ok_bind]
  dsimp only
  rw [scanExponent_of_ends h]
  rfl

/-! ### The value -/

theorem absorb_of_ofDigitChars {cs : List Char} {start : Nat}
    (h : Nat.ofDigitChars 10 cs start ≤ maxNatural) :
    absorb start (cs.map fun c => c.toNat - 48) = (Nat.ofDigitChars 10 cs start, 0) := by
  induction cs generalizing start with
  | nil => rfl
  | cons c cs ih =>
    rw [Nat.ofDigitChars_cons, Nat.mul_comm] at h ⊢
    have hle := Nat.le_trans (le_ofDigitChars cs _) h
    rw [List.map_cons, absorb]
    exact (if_pos hle).trans (ih h)

theorem absorb_digits {n : Nat} (h : n ≤ maxNatural) : absorb 0 (digits n) = (n, 0) := by
  have hn : Nat.ofDigitChars 10 (Nat.toDigits 10 n) 0 = n := Nat.ofDigitChars_ten_toDigits
  rw [digits, absorb_of_ofDigitChars (by rwa [hn]), hn]

theorem value_of_natural {n : Nat} (h : n ≤ maxNatural) :
    (Parts.mk false (digits n) none none).value = .ok (.int n) := by
  rw [Parts.value]
  dsimp only
  rw [absorb_digits h]
  rfl

theorem value_of_negative {n : Nat} (hpos : 0 < n) (h : n ≤ 9223372036854775808) :
    (Parts.mk true (digits n) none none).value = .ok (.int (-(n : Int))) := by
  rw [Parts.value]
  dsimp only
  rw [absorb_digits (Nat.le_trans h (by decide))]
  exact (if_neg (Nat.ne_of_gt hpos)).trans (if_pos h)

end TokenGate.Proofs.Json.Numerals
