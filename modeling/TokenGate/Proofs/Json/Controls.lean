import TokenGate.Proofs.Json.PrintedTokens

/-! # Control characters of a printed value

In a printed string a control character below the blank is escaped, and one from the delete
character on stands for itself (`mem_escape_iff`). What is put around strings is printable ASCII,
and so is a number. So the control characters of a printed value are exactly those of its strings
that stand for themselves (`mem_chars_iff`). -/

namespace TokenGate.Proofs.Json.Controls

open TokenGate.Json TokenGate.Text.Utf8 TokenGate.Text.Hexadecimal
open TokenGate.Proofs.Text.Utf8 TokenGate.Proofs.Json.Numerals TokenGate.Proofs.Json.PrintedNumbers
open TokenGate.Proofs.Json.PrintedTokens

/-- A number of the printable range of ASCII. -/
def IsPrintable (n : Nat) : Prop := 0x20 ≤ n ∧ n < 0x7F

instance (n : Nat) : Decidable (IsPrintable n) := inferInstanceAs (Decidable (0x20 ≤ n ∧ n < 0x7F))

/-- The control characters of Unicode: those below the blank, the delete character and the 32 behind
it. -/
def IsControl (c : Char) : Prop := c.toNat < 0x20 ∨ 0x7F ≤ c.toNat ∧ c.toNat ≤ 0x9F

instance (c : Char) : Decidable (IsControl c) :=
  inferInstanceAs (Decidable (c.toNat < 0x20 ∨ 0x7F ≤ c.toNat ∧ c.toNat ≤ 0x9F))

/-- A character stands in a string of a value, or in a name of a member. -/
inductive StandsIn (c : Char) : Json → Prop
  | string {s : String} (h : c ∈ s.toList) : StandsIn c (.string s)
  | item {items : List Json} {v : Json} (hv : v ∈ items) (h : StandsIn c v) :
    StandsIn c (.array items)
  | name {ms : List (String × Json)} {m : String × Json} (hm : m ∈ ms) (h : c ∈ m.1.toList) :
    StandsIn c (.object ms)
  | member {ms : List (String × Json)} {m : String × Json} (hm : m ∈ ms) (h : StandsIn c m.2) :
    StandsIn c (.object ms)

variable {c : Char}

theorem standsIn_string {s : String} : StandsIn c (.string s) ↔ c ∈ s.toList := by
  constructor
  · rintro ⟨h⟩
    exact h
  · exact .string

theorem printable_of_all {cs : List Char} (h : cs.all (fun c => decide (IsPrintable c.toNat)) = true) :
    ∀ c ∈ cs, IsPrintable c.toNat :=
  fun c hc => of_decide_eq_true (List.all_eq_true.mp h c hc)

theorem not_mem_of_printable (hc : IsControl c) {cs : List Char} (h : ∀ d ∈ cs, IsPrintable d.toNat) :
    c ∉ cs := by
  intro hmem
  obtain ⟨hlow, hhigh⟩ := h c hmem
  rcases hc with hc | hc <;> omega

theorem ne_of_printable (hc : IsControl c) {d : Char} (h : IsPrintable d.toNat) : c ≠ d := by
  rintro rfl
  exact not_mem_of_printable hc (List.forall_mem_singleton.mpr h) List.mem_cons_self

/-! ### Strings -/

theorem printable_lowerDigit : ∀ n < 16, IsPrintable (lowerDigit n).toNat := by
  decide

/-- A character stands for itself, or is one of ASCII that printable characters stand for. -/
theorem escape_cases (d : Char) : (escape d = [d] ∧ 0x20 ≤ d.toNat) ∨
    d.toNat < 0x7F ∧ ∀ c ∈ escape d, IsPrintable c.toNat := by
  unfold escape
  split_ifs with hquote hescape h08 h0C h0A h0D h09 hcontrol
  · exact Or.inr ⟨by rw [hquote]; decide, printable_of_all (by decide)⟩
  · exact Or.inr ⟨by rw [hescape]; decide, printable_of_all (by decide)⟩
  · exact Or.inr ⟨by omega, printable_of_all (by decide)⟩
  · exact Or.inr ⟨by omega, printable_of_all (by decide)⟩
  · exact Or.inr ⟨by omega, printable_of_all (by decide)⟩
  · exact Or.inr ⟨by omega, printable_of_all (by decide)⟩
  · exact Or.inr ⟨by omega, printable_of_all (by decide)⟩
  · have hhigh := printable_lowerDigit (d.toNat / 16) (by omega)
    have hlow := printable_lowerDigit (d.toNat % 16) (by omega)
    refine Or.inr ⟨by omega, ?_⟩
    simp only [List.forall_mem_cons]
    exact ⟨by decide, by decide, by decide, by decide, hhigh, hlow, by simp⟩
  · exact Or.inl ⟨rfl, by omega⟩

/-- **A control character is escaped or stands for itself**, according to the end of ASCII where it
is. -/
theorem mem_escape_iff (hc : IsControl c) (d : Char) : c ∈ escape d ↔ 0x7F ≤ c.toNat ∧ c = d := by
  rcases escape_cases d with ⟨h, hd⟩ | ⟨hd, h⟩
  · rw [h, List.mem_singleton]
    constructor
    · rintro rfl
      exact ⟨(hc.resolve_left (by omega)).1, rfl⟩
    · exact And.right
  · refine iff_of_false (not_mem_of_printable hc h) ?_
    rintro ⟨hhigh, rfl⟩
    omega

theorem mem_quoted_iff (hc : IsControl c) (s : String) :
    c ∈ quoted s ↔ 0x7F ≤ c.toNat ∧ c ∈ s.toList := by
  have hquote : c ≠ '"' := ne_of_printable hc (by decide)
  rw [quoted, List.cons_append, List.mem_cons, or_iff_right hquote, List.mem_append,
    List.mem_singleton, or_iff_left hquote, List.mem_flatMap]
  simp only [mem_escape_iff hc]
  constructor
  · rintro ⟨d, hd, hhigh, rfl⟩
    exact ⟨hhigh, hd⟩
  · rintro ⟨hhigh, hmem⟩
    exact ⟨c, hmem, hhigh, rfl⟩

/-! ### Numbers -/

theorem printable_of_isDigit {b : UInt8} (h : Numeral.isDigit b = true) : IsPrintable b.toNat := by
  simp only [Numeral.isDigit, Bool.and_eq_true, decide_eq_true_eq, UInt8.le_iff_toNat_le,
    UInt8.reduceToNat] at h
  exact ⟨by omega, by omega⟩

theorem printable_of_isDigits {bs : List UInt8} (h : IsDigits bs) : ∀ b ∈ bs, IsPrintable b.toNat :=
  fun b hb => printable_of_isDigit (h.2 b hb)

theorem printable_of_isFraction {bs : List UInt8} (h : IsFraction bs) :
    ∀ b ∈ bs, IsPrintable b.toNat := by
  cases h with
  | none => simp
  | some hds => exact List.forall_mem_cons.mpr ⟨by decide, printable_of_isDigits hds⟩

theorem printable_of_isExponent {bs : List UInt8} (h : IsExponent bs) :
    ∀ b ∈ bs, IsPrintable b.toNat := by
  cases h with
  | none => simp
  | some hmark hsign hds =>
    refine List.forall_mem_cons.mpr ⟨by rcases hmark with rfl | rfl <;> decide, ?_⟩
    refine List.forall_mem_append.mpr ⟨?_, printable_of_isDigits hds⟩
    rcases hsign with rfl | rfl | rfl
    · exact fun _ hb => by cases hb
    · exact List.forall_mem_singleton.mpr (by decide)
    · exact List.forall_mem_singleton.mpr (by decide)

theorem printable_of_isUnsigned {bs : List UInt8} (h : IsUnsigned bs) :
    ∀ b ∈ bs, IsPrintable b.toNat := by
  obtain ⟨hwhole, hfraction, hexponent⟩ := h
  exact List.forall_mem_append.mpr ⟨printable_of_isDigits hwhole.1, List.forall_mem_append.mpr
    ⟨printable_of_isFraction hfraction, printable_of_isExponent hexponent⟩⟩

theorem printable_of_isNumeral {bs : List UInt8} (h : IsNumeral bs) : ∀ b ∈ bs, IsPrintable b.toNat := by
  cases h with
  | unsigned h => exact printable_of_isUnsigned h
  | negative h => exact List.forall_mem_cons.mpr ⟨by decide, printable_of_isUnsigned h⟩

/-- **A number is printed in printable characters.** -/
theorem printable_render (n : Number) : ∀ c ∈ n.render, IsPrintable c.toNat := by
  intro c hc
  have hbytes : ∀ b ∈ encodeChar c, IsPrintable b.toNat := fun b hb =>
    printable_of_isNumeral (isNumeral_render n) b (List.mem_flatMap.mpr ⟨c, hc, hb⟩)
  rcases Nat.lt_or_ge c.toNat 0x80 with hlow | hhigh
  · rw [encodeChar_ascii hlow, List.forall_mem_singleton, toNat_octet (by omega)] at hbytes
    exact hbytes
  · -- A character beyond ASCII has octets beyond ASCII, and a numeral has none.
    have hne : encodeChar c ≠ [] := by
      unfold encodeChar
      dsimp only
      split_ifs <;> simp
    obtain ⟨b, hb⟩ := List.exists_mem_of_ne_nil _ hne
    have hle := le_of_mem_encodeChar hhigh hb
    have hlt := (hbytes b hb).2
    omega

/-! ### Values -/

theorem mem_itemChars_iff (hc : IsControl c) (items : List Json) :
    c ∈ itemChars items ↔ ∃ v ∈ items, c ∈ chars v := by
  have hclose : c ≠ ']' := ne_of_printable hc (by decide)
  have hcomma : c ≠ ',' := ne_of_printable hc (by decide)
  induction items with
  | nil => simp [itemChars, hclose]
  | cons v items ih =>
    cases items with
    | nil => simp [itemChars, hclose]
    | cons w items =>
      have hchars : itemChars (v :: w :: items) = chars v ++ ',' :: itemChars (w :: items) := by
        simp [itemChars]
      rw [hchars, List.mem_append, List.mem_cons, or_iff_right hcomma]
      exact (or_congr_right ih).trans (List.exists_mem_cons_iff (c ∈ chars ·) v _).symm

theorem mem_memberChars_iff (hc : IsControl c) (ms : List (String × Json)) :
    c ∈ memberChars ms ↔ ∃ m ∈ ms, c ∈ quoted m.1 ∨ c ∈ chars m.2 := by
  have hclose : c ≠ '\x7d' := ne_of_printable hc (by decide)
  have hcomma : c ≠ ',' := ne_of_printable hc (by decide)
  have hcolon : c ≠ ':' := ne_of_printable hc (by decide)
  induction ms with
  | nil => simp [memberChars, hclose]
  | cons m ms ih =>
    cases ms with
    | nil => simp [memberChars, hclose, hcolon]
    | cons m' ms =>
      have hchars : memberChars (m :: m' :: ms) =
          quoted m.1 ++ ':' :: chars m.2 ++ ',' :: memberChars (m' :: ms) := by
        simp [memberChars]
      rw [hchars, List.mem_append, List.mem_append, List.mem_cons, List.mem_cons,
        or_iff_right hcomma, or_iff_right hcolon]
      exact (or_congr_right ih).trans
        (List.exists_mem_cons_iff (fun m => c ∈ quoted m.1 ∨ c ∈ chars m.2) m _).symm

/-- **The control characters of a printed value** are those of its strings, from the delete
character on; none below the blank is among them. -/
theorem mem_chars_iff (hc : IsControl c) (v : Json) : c ∈ chars v ↔ 0x7F ≤ c.toNat ∧ StandsIn c v := by
  induction v using json_induction with
  | null =>
    have hnull : c ∉ chars .null := not_mem_of_printable hc (printable_of_all (by decide))
    exact iff_of_false hnull (by rintro ⟨-, ⟨⟩⟩)
  | bool b =>
    refine iff_of_false (not_mem_of_printable hc (printable_of_all ?_)) (by rintro ⟨-, ⟨⟩⟩)
    cases b <;> decide
  | number n => exact iff_of_false (not_mem_of_printable hc (printable_render n)) (by rintro ⟨-, ⟨⟩⟩)
  | string s => rw [chars, mem_quoted_iff hc, standsIn_string]
  | array items ih =>
    have hopen : c ≠ '[' := ne_of_printable hc (by decide)
    rw [chars, List.mem_cons, or_iff_right hopen, mem_itemChars_iff hc]
    constructor
    · rintro ⟨v, hv, h⟩
      obtain ⟨hhigh, h⟩ := (ih v hv).mp h
      exact ⟨hhigh, .item hv h⟩
    · rintro ⟨hhigh, _ | ⟨hv, h⟩⟩
      exact ⟨_, hv, (ih _ hv).mpr ⟨hhigh, h⟩⟩
  | object ms ih =>
    have hopen : c ≠ '\x7b' := ne_of_printable hc (by decide)
    rw [chars, List.mem_cons, or_iff_right hopen, mem_memberChars_iff hc]
    simp only [mem_quoted_iff hc]
    constructor
    · rintro ⟨m, hm, ⟨hhigh, h⟩ | h⟩
      · exact ⟨hhigh, .name hm h⟩
      · obtain ⟨hhigh, h⟩ := (ih m hm).mp h
        exact ⟨hhigh, .member hm h⟩
    · rintro ⟨hhigh, _ | _ | ⟨hm, h⟩ | ⟨hm, h⟩⟩
      · exact ⟨_, hm, Or.inl ⟨hhigh, h⟩⟩
      · exact ⟨_, hm, Or.inr ((ih _ hm).mpr ⟨hhigh, h⟩)⟩

end TokenGate.Proofs.Json.Controls
