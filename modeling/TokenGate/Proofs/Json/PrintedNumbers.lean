import TokenGate.Json.Basic
import TokenGate.Proofs.Json.Numerals

/-! # Numbers are printed as numerals

An integer is printed with its digits. A number with a point or an exponent is printed from its
shortest digits in one of three forms: a whole number with a zero behind its point, digits with a
point among them or in front of them, and one digit with an exponent. Whatever the digits are, each
of them is a numeral (`isNumeral_render`). -/

namespace TokenGate.Proofs.Json.PrintedNumbers

open TokenGate.Json TokenGate.Number TokenGate.Number.Shortest TokenGate.Text.Utf8
open TokenGate.Proofs.Text.Digits TokenGate.Proofs.Text.Utf8 TokenGate.Proofs.Json.Numerals

theorem encode_append (s t : String) : encode (s ++ t) = encode s ++ encode t := by
  rw [encode, String.toList_append, encodeChars_append]
  rfl

theorem encode_repr (n : Nat) : encode (Nat.repr n) = encodeChars (Nat.toDigits 10 n) := by
  rw [encode, Nat.toList_repr]

theorem encode_ofList (cs : List Char) : encode (String.ofList cs) = encodeChars cs := by
  rw [encode, String.toList_ofList]

theorem isWhole_zero : IsWhole [0x30] :=
  ⟨⟨List.cons_ne_nil _ _, List.forall_mem_singleton.mpr rfl⟩, fun _ => rfl⟩

theorem isFraction_encode {ds : List UInt8} (h : IsDigits ds) : IsFraction (encode "." ++ ds) :=
  IsFraction.some h

theorem isDigit_zeros (n : Nat) : ∀ c ∈ (zeros n).toList, IsDigit c := by
  intro c hc
  rw [zeros, String.toList_ofList] at hc
  rw [List.eq_of_mem_replicate hc]
  exact ⟨by decide, by decide⟩

theorem isUnsigned_of_isWhole {bs : List UInt8} (h : IsWhole bs) : IsUnsigned bs := by
  have hparts := IsUnsigned.parts h .none .none
  rwa [List.append_nil, List.append_nil] at hparts

theorem isUnsigned_of_fraction {whole fraction : List UInt8} (hw : IsWhole whole)
    (hf : IsFraction fraction) : IsUnsigned (whole ++ fraction) := by
  have hparts := IsUnsigned.parts hw hf .none
  rwa [List.append_nil] at hparts

/-! ### Integers -/

theorem isNumeral_int (z : Int) : IsNumeral (encode (toString z)) := by
  rw [Int.toString_eq_repr, Int.repr_eq_if]
  split_ifs
  · rw [encode_repr]
    exact .unsigned (isUnsigned_of_isWhole (isWhole_toDigits _))
  · rw [encode_append, encode_repr]
    exact .negative (isUnsigned_of_isWhole (isWhole_toDigits _))

/-! ### Numbers with a point or an exponent -/

theorem isWhole_positional {d : Digits} (h : 0 ≤ d.power) : IsWhole (encode (positional d)) := by
  rw [positional, if_pos h]
  split_ifs with hzero
  · rw [encode_repr]
    exact isWhole_toDigits _
  · rw [encode, String.toList_append, Nat.toList_repr]
    refine isWhole_encodeChars (by simp) (fun c hc => ?_) fun hhead => ?_
    · rcases List.mem_append.mp hc with hc | hc
      · exact isDigit_of_mem_toDigits hc
      · exact isDigit_zeros _ c hc
    · rw [List.head?_append, Option.or_of_isSome (by simp)] at hhead
      exact absurd (head?_toDigits hhead) hzero

theorem isUnsigned_positional {d : Digits} (h : d.power < 0) :
    IsUnsigned (encode (positional d)) := by
  rw [positional, if_neg (by omega)]
  dsimp only
  split_ifs with hplaces
  · -- The point stands among the digits.
    rw [← String.length_toList, Nat.toList_repr] at *
    rw [encode_append, encode_append, List.append_assoc, encode_ofList (List.take _ _),
      encode_ofList (List.drop _ _)]
    have hwhole : IsWhole (encodeChars (List.take
        ((Nat.toDigits 10 d.significand).length - (-d.power).toNat)
        (Nat.toDigits 10 d.significand))) := by
      refine isWhole_encodeChars ?_ (fun c hc => ?_) fun hhead => ?_
      · rw [ne_eq, List.take_eq_nil_iff, not_or]
        exact ⟨by omega, Nat.toDigits_ne_nil⟩
      · exact isDigit_of_mem_toDigits (List.mem_of_mem_take hc)
      · rw [List.head?_take, if_neg (by omega)] at hhead
        have := length_toDigits hhead
        omega
    have hdigits : IsDigits (encodeChars (List.drop
        ((Nat.toDigits 10 d.significand).length - (-d.power).toNat)
        (Nat.toDigits 10 d.significand))) := by
      refine isDigits_encodeChars ?_ fun c hc => isDigit_of_mem_toDigits (List.mem_of_mem_drop hc)
      rw [ne_eq, List.drop_eq_nil_iff]
      omega
    exact isUnsigned_of_fraction hwhole (isFraction_encode hdigits)
  · -- The digits stand behind the point.
    have hpoint : encode "0." = [0x30] ++ encode "." := rfl
    have hdigits : IsDigits (encode (zeros ((-d.power).toNat - (Nat.repr d.significand).length) ++
        Nat.repr d.significand)) := by
      rw [encode, String.toList_append, Nat.toList_repr]
      refine isDigits_encodeChars (by simp) fun c hc => ?_
      rcases List.mem_append.mp hc with hc | hc
      · exact isDigit_zeros _ c hc
      · exact isDigit_of_mem_toDigits hc
    rw [String.append_assoc, encode_append, hpoint, List.append_assoc]
    exact isUnsigned_of_fraction isWhole_zero (isFraction_encode hdigits)

theorem isExponent_int (z : Int) : IsExponent (encode "e" ++ encode (toString z)) := by
  rw [Int.toString_eq_repr, Int.repr_eq_if]
  split_ifs
  · rw [encode_repr]
    exact .some (Or.inl rfl) (Or.inl rfl) (isDigits_toDigits _)
  · have hexponent : IsExponent (0x65 :: ([0x2D] ++ encodeChars (Nat.toDigits 10 (-z).toNat))) :=
      .some (Or.inl rfl) (Or.inr (Or.inr rfl)) (isDigits_toDigits _)
    rw [encode_append, encode_repr]
    exact hexponent

theorem isUnsigned_pointed (n : Nat) {exponent : List UInt8} (he : IsExponent exponent) :
    IsUnsigned (encode (match (Nat.repr n).toList with
      | c :: r@(_ :: _) => String.ofList (c :: '.' :: r)
      | _ => Nat.repr n) ++ exponent) := by
  obtain ⟨c, cs, hcs⟩ := List.exists_cons_of_ne_nil (Nat.toDigits_ne_nil (n := n) (b := 10))
  have hdigit : ∀ d ∈ c :: cs, IsDigit d := fun d hd => isDigit_of_mem_toDigits (hcs ▸ hd)
  obtain ⟨hc, hds⟩ := List.forall_mem_cons.mp hdigit
  rw [Nat.toList_repr, hcs]
  cases cs with
  | nil =>
    rw [encode_repr]
    exact .parts (isWhole_toDigits n) .none he
  | cons d ds =>
    have hwhole : IsWhole (encodeChars [c]) :=
      isWhole_encodeChars (by simp) (by simpa using hc) fun _ => rfl
    have hchars : encodeChars (c :: '.' :: d :: ds) =
        encodeChars [c] ++ (encode "." ++ encodeChars (d :: ds)) :=
      encodeChars_append [c] ('.' :: d :: ds)
    dsimp only
    rw [encode_ofList, hchars, List.append_assoc]
    exact .parts hwhole (isFraction_encode (isDigits_encodeChars (by simp) hds)) he

theorem isNumeral_compact (x : Binary64) : IsNumeral (encode (compact x)) := by
  have hsigned : ∀ {s : String}, IsUnsigned (encode s) → IsNumeral (encode (sign x ++ s)) := by
    intro s hs
    rw [encode_append, sign]
    split_ifs
    · exact .negative hs
    · exact .unsigned hs
  have hzero : IsFraction (encode "." ++ [0x30]) := isFraction_encode isWhole_zero.1
  rw [compact]
  refine hsigned ?_
  split_ifs with hx hwhole hpoint
  · exact isUnsigned_of_fraction isWhole_zero hzero
  · rw [encode_append]
    exact isUnsigned_of_fraction (isWhole_positional hwhole.1) hzero
  · refine isUnsigned_positional ?_
    omega
  · rw [encode_append, encode_append, List.append_assoc]
    exact isUnsigned_pointed _ (isExponent_int _)

/-- **Every number is printed as a numeral.** -/
theorem isNumeral_render (n : Number) : IsNumeral (encodeChars n.render) := by
  cases n with
  | int z => exact isNumeral_int z
  | float x => exact isNumeral_compact x

end TokenGate.Proofs.Json.PrintedNumbers
