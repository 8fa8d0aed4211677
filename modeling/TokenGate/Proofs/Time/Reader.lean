import TokenGate.Proofs.Results
import TokenGate.Proofs.Text.Utf8
import TokenGate.Proofs.Time.Civil
import TokenGate.Time.Reader
import TokenGate.Time.Timestamp
import Mathlib.Algebra.Group.Nat.Even
import Mathlib.Tactic.SplitIfs

/-! # Timestamps that are read back

Every timestamp is read back from its text (`ofText_render`), because each of its numbers is
(`number_padded`). -/

/-! ## Printed numbers, years and fractions that are read back

A number that is printed with zeros in front up to a width is read as this number, where it is as
wide as a number may be or where no digit follows (`number_padded`). From this follow the readings
of the parts of a timestamp: numbers between bounds (`bounded_padded`), years with and without a
sign (`year_yearChars`), and fractions of a second (`fraction_fractionChars`). -/

namespace TokenGate.Proofs.Time.Reader

open TokenGate.Time TokenGate.Time.Reader TokenGate.Text TokenGate.Proofs.Results
open TokenGate.Proofs.Text.Digits

/-- No digit comes next. -/
def Stops (rest : List Char) : Prop := ∀ c ∈ rest.head?, ¬ IsDigit c

/-! ### Numbers -/

theorem isDigit_iff {c : Char} : isDigit c = true ↔ IsDigit c := by
  rw [isDigit, Bool.and_eq_true, decide_eq_true_eq, decide_eq_true_eq]
  exact Iff.rfl

theorem moreDigits_of_stops {rest : List Char} (h : Stops rest) (n width : Nat) :
    moreDigits n width rest = .ok (n, rest) := by
  cases width with
  | zero => rw [moreDigits]
  | succ width =>
    cases rest with
    | nil => rfl
    | cons c rest => rw [moreDigits, if_neg (mt isDigit_iff.mp (h c rfl))]

theorem moreDigits_append {ds : List Char} (hds : ∀ c ∈ ds, IsDigit c) {n width : Nat}
    {rest : List Char} (hwidth : ds.length = width ∨ ds.length ≤ width ∧ Stops rest)
    (hmax : Nat.ofDigitChars 10 ds n ≤ maxInteger) :
    moreDigits n width (ds ++ rest) = .ok (Nat.ofDigitChars 10 ds n, rest) := by
  induction ds generalizing n width with
  | nil =>
    rw [List.nil_append, Nat.ofDigitChars_nil]
    rcases hwidth with rfl | ⟨-, hrest⟩
    · rw [List.length_nil, moreDigits]
    · exact moreDigits_of_stops hrest n width
  | cons c ds ih =>
    obtain ⟨hc, hds⟩ := List.forall_mem_cons.mp hds
    rw [Nat.ofDigitChars_cons, Nat.mul_comm] at hmax ⊢
    have hle := Nat.le_trans (le_ofDigitChars ds _) hmax
    obtain ⟨width, rfl⟩ : ∃ w, width = w + 1 := by
      refine ⟨width - 1, ?_⟩
      simp only [List.length_cons] at hwidth
      omega
    simp only [List.length_cons, Nat.add_right_cancel_iff, Nat.add_le_add_iff_right] at hwidth
    rw [List.cons_append, moreDigits, if_pos (isDigit_iff.mpr hc)]
    exact (if_neg (Nat.not_lt.mpr hle)).trans (ih hds hwidth hmax)

/-- **A number is read from its digits.** -/
theorem number_append {ds : List Char} (hds : ∀ c ∈ ds, IsDigit c) (hne : ds ≠ []) {width : Nat}
    {rest : List Char} (hwidth : ds.length = width ∨ ds.length ≤ width ∧ Stops rest)
    (hmax : Nat.ofDigitChars 10 ds 0 ≤ maxInteger) :
    number width (ds ++ rest) = .ok (Nat.ofDigitChars 10 ds 0, rest) := by
  cases ds with
  | nil => exact absurd rfl hne
  | cons c ds =>
    obtain ⟨hc, hds⟩ := List.forall_mem_cons.mp hds
    rw [Nat.ofDigitChars_cons, Nat.mul_zero, Nat.zero_add] at hmax ⊢
    rw [List.cons_append, number, if_pos (isDigit_iff.mpr hc)]
    rw [List.length_cons] at hwidth
    refine moreDigits_append hds ?_ hmax
    exact hwidth.imp (fun h => by omega) fun ⟨h, hrest⟩ => ⟨by omega, hrest⟩

/-! ### Padded numbers -/

theorem isDigit_of_mem_padded {width n : Nat} {c : Char} (hc : c ∈ padded width n) : IsDigit c := by
  rcases List.mem_append.mp hc with hc | hc
  · rw [(List.mem_replicate.mp hc).2]
    exact ⟨by decide, by decide⟩
  · exact isDigit_of_mem_toDigits hc

theorem padded_ne_nil (width n : Nat) : padded width n ≠ [] := by
  simp [padded]

theorem ofDigitChars_padded (width n : Nat) : Nat.ofDigitChars 10 (padded width n) 0 = n := by
  rw [padded, Nat.ofDigitChars_append, Nat.ofDigitChars_replicate_zero, Nat.mul_zero,
    Nat.ofDigitChars_ten_toDigits]

theorem length_padded {width n : Nat} (hwidth : 0 < width) (h : n < 10 ^ width) :
    (padded width n).length = width := by
  have hle := (Nat.length_toDigits_le_iff (by decide) hwidth).mpr h
  rw [padded, List.length_append, List.length_replicate]
  omega

/-- **A padded number is read back.** -/
theorem number_padded {w n width : Nat} {rest : List Char}
    (hwidth : (padded w n).length = width ∨ (padded w n).length ≤ width ∧ Stops rest)
    (h : n ≤ maxInteger) : number width (padded w n ++ rest) = .ok (n, rest) := by
  have hvalue := ofDigitChars_padded w n
  rw [number_append (fun c hc => isDigit_of_mem_padded hc) (padded_ne_nil w n) hwidth (by rwa [hvalue]),
    hvalue]

theorem trimStart_padded (w n : Nat) (rest : List Char) :
    trimStart (padded w n ++ rest) = padded w n ++ rest := by
  obtain ⟨c, cs, hcs⟩ := List.exists_cons_of_ne_nil (padded_ne_nil w n)
  obtain ⟨hlow, hhigh⟩ : IsDigit c := isDigit_of_mem_padded (hcs ▸ List.mem_cons_self)
  have hblank : ¬ isBlank c = true := by
    simp [isBlank]
    omega
  rw [hcs, List.cons_append, trimStart, List.dropWhile_cons_of_neg hblank]

/-- **A number between bounds is read back** from two digits. -/
theorem bounded_padded {low high n : Nat} (hlow : low ≤ n) (hhigh : n ≤ high) (h : n < 100)
    (rest : List Char) : bounded low high (padded 2 n ++ rest) = .ok (n, rest) := by
  have hmax : n ≤ maxInteger := by
    unfold maxInteger
    omega
  rw [bounded, trimStart_padded, number_padded (Or.inl (length_padded (by decide) h)) hmax, ok_bind]
  exact if_pos ⟨hlow, hhigh⟩

/-! ### Years -/

theorem year_minus (cs : List Char) : year ('-' :: cs) = (do
    let (n, cs) ← number cs.length cs
    if n ≤ 2147483648 then return (-(n : Int), cs) else .error .outOfRange) := rfl

theorem year_plus (cs : List Char) : year ('+' :: cs) = (do
    let (n, cs) ← number cs.length cs
    if n < 2147483648 then return ((n : Int), cs) else .error .outOfRange) := rfl

theorem number_year {n : Nat} (h : n < 2147483648) {rest : List Char} (hrest : Stops rest) :
    number (padded 4 n ++ rest).length (padded 4 n ++ rest) = .ok (n, rest) := by
  have hlength : (padded 4 n).length ≤ (padded 4 n ++ rest).length := by
    rw [List.length_append]
    omega
  exact number_padded (Or.inr ⟨hlength, hrest⟩) (by unfold maxInteger; omega)

theorem year_padded {n : Nat} (h : n ≤ 9999) (rest : List Char) :
    year (padded 4 n ++ rest) = .ok ((n : Int), rest) := by
  have hnumber : number 4 (padded 4 n ++ rest) = .ok (n, rest) :=
    number_padded (Or.inl (length_padded (by decide) (by omega))) (by unfold maxInteger; omega)
  have htrim := trimStart_padded 4 n rest
  obtain ⟨c, cs, hcs⟩ := List.exists_cons_of_ne_nil (padded_ne_nil 4 n)
  obtain ⟨hlow, hhigh⟩ : IsDigit c := isDigit_of_mem_padded (hcs ▸ List.mem_cons_self)
  rw [hcs, List.cons_append] at hnumber htrim ⊢
  rw [year, htrim]
  split
  · rename_i heq
    cases heq
    exact absurd hlow (by decide)
  · rename_i heq
    cases heq
    exact absurd hlow (by decide)
  · rw [hnumber]
    rfl

/-- **A year is read back**, with a sign or without. -/
theorem year_yearChars {y : Int} (h : -2147483648 < y ∧ y < 2147483648) {rest : List Char}
    (hrest : Stops rest) : year (yearChars y ++ rest) = .ok (y, rest) := by
  rw [yearChars]
  by_cases hplain : 0 ≤ y ∧ y ≤ 9999
  · rw [if_pos hplain, year_padded (by omega), Int.toNat_of_nonneg hplain.1]
  rw [if_neg hplain]
  by_cases hneg : y < 0
  · rw [if_pos hneg, List.cons_append, year_minus, number_year (by omega) hrest, ok_bind]
    refine (if_pos (by omega)).trans ?_
    rw [show -(y.natAbs : Int) = y by omega]
    rfl
  · rw [if_neg hneg, List.cons_append, year_plus, number_year (by omega) hrest, ok_bind]
    refine (if_pos (by omega)).trans ?_
    rw [show (y.natAbs : Int) = y by omega]
    rfl

/-! ### Fractions -/

theorem fraction_point (cs : List Char) : fraction ('.' :: cs) = (do
    let (n, rest) ← number 9 cs
    return (n * 10 ^ (9 - (cs.length - rest.length)), rest.dropWhile isDigit)) := rfl

/-- A number of as many digits, of which there are at most nine, is a fraction of a second. -/
theorem fraction_padded {w n : Nat} (hw : 0 < w ∧ w ≤ 9) (h : n < 10 ^ w) :
    fraction ('.' :: padded w n ++ ['Z']) = .ok (n * 10 ^ (9 - w), ['Z']) := by
  have hlength := length_padded hw.1 h
  have hmax : n ≤ maxInteger := by
    have hpow : 10 ^ w ≤ 10 ^ 9 := Nat.pow_le_pow_right (by decide) hw.2
    unfold maxInteger
    omega
  have hstops : Stops ['Z'] := by
    rintro _ ⟨⟩
    exact fun hdigit => absurd hdigit.2 (by decide)
  have hnumber : number 9 (padded w n ++ ['Z']) = .ok (n, ['Z']) :=
    number_padded (Or.inr ⟨by omega, hstops⟩) hmax
  have hused : (padded w n ++ ['Z']).length - ['Z'].length = w := by
    rw [List.length_append, hlength, Nat.add_sub_cancel]
  rw [List.cons_append, fraction_point, hnumber, ok_bind]
  dsimp only
  rw [hused]
  rfl

/-- **A fraction of a second is read back** from three, six or nine digits. -/
theorem fraction_fractionChars {nanos : Nat} (h : nanos < 1000000000) :
    fraction (fractionChars nanos ++ ['Z']) = .ok (nanos, ['Z']) := by
  rw [fractionChars]
  split_ifs with hzero hmillis hmicros
  · rw [hzero]
    rfl
  · rw [fraction_padded (by decide) (by omega)]
    rw [show nanos / 1000000 * 10 ^ (9 - 3) = nanos by omega]
  · rw [fraction_padded (by decide) (by omega)]
    rw [show nanos / 1000 * 10 ^ (9 - 6) = nanos by omega]
  · rw [fraction_padded (by decide) (by omega)]
    rw [show nanos * 10 ^ (9 - 9) = nanos by omega]

end TokenGate.Proofs.Time.Reader

/-! ## Whole timestamps

The date of a timestamp and its time of day are read back one number after the other (`date_chars`,
`clock_chars`), and together they denote the timestamp again (`combine_ofDays`): in a leap second
the printed second is 60, and the nanoseconds of the timestamp run on. So every timestamp is read
back from its text (`ofText_render`). -/

namespace TokenGate.Proofs.Time.RoundTrip

open TokenGate.Time TokenGate.Time.Reader TokenGate.Text TokenGate.Proofs.Results
open TokenGate.Proofs.Text.Digits TokenGate.Proofs.Time.Reader TokenGate.Proofs.Time.Civil

theorem mark_cons (c : Char) (cs : List Char) : mark c (c :: cs) = .ok ((), cs) := if_pos rfl

theorem date_chars {d : Civil} (hvalid : d.isValid = true)
    (hyear : -262143 ≤ d.year ∧ d.year ≤ 262142) (rest : List Char) :
    date (yearChars d.year ++ '-' :: (padded 2 d.month ++ '-' :: (padded 2 d.day ++ rest))) =
      .ok (d, rest) := by
  unfold Civil.isValid Civil.monthLength at hvalid
  simp only [Bool.and_eq_true, decide_eq_true_eq] at hvalid
  obtain ⟨⟨⟨hmonth, hmonth'⟩, hday⟩, hday'⟩ := hvalid
  have hday31 : d.day ≤ 31 := by
    split_ifs at hday' <;> omega
  have hstops : Stops ('-' :: (padded 2 d.month ++ '-' :: (padded 2 d.day ++ rest))) := by
    rintro _ ⟨⟩
    exact fun hdigit => absurd hdigit.1 (by decide)
  have hmark : ∀ cs, trimStart ('-' :: cs) = '-' :: cs := fun _ => rfl
  rw [date, year_yearChars (by omega) hstops, ok_bind]
  dsimp only
  rw [hmark, mark_cons, ok_bind]
  dsimp only
  rw [bounded_padded hmonth hmonth' (by omega), ok_bind]
  dsimp only
  rw [hmark, mark_cons, ok_bind]
  dsimp only
  rw [bounded_padded hday hday31 (by omega)]
  rfl

theorem clock_chars {h m s nanos : Nat} (hh : h ≤ 23) (hm : m ≤ 59) (hs : s ≤ 60)
    (hnanos : nanos < 1000000000) :
    clock (padded 2 h ++ ':' :: (padded 2 m ++ ':' :: (padded 2 s ++ (fractionChars nanos ++ ['Z'])))) =
      .ok (⟨h, m, s, nanos⟩, ['Z']) := by
  have hmark : ∀ cs, trimStart (':' :: cs) = ':' :: cs := fun _ => rfl
  rw [clock, bounded_padded (Nat.zero_le h) hh (by omega), ok_bind]
  dsimp only
  rw [hmark, mark_cons, ok_bind]
  dsimp only
  rw [bounded_padded (Nat.zero_le m) hm (by omega), ok_bind]
  dsimp only
  rw [hmark, mark_cons, ok_bind]
  dsimp only
  rw [bounded_padded (Nat.zero_le s) hs (by omega), ok_bind]
  dsimp only
  rw [fraction_fractionChars hnanos]
  rfl

/-- The second of a timestamp is printed as 60 in a leap second only. -/
theorem second_of_timestamp (t : Timestamp) {c : Nat} (hc : (c : Int) = t.seconds % 86400) :
    (if c % 60 + t.nanos / 1000000000 = 60 then 59 else c % 60 + t.nanos / 1000000000) = c % 60 ∧
      (if c % 60 + t.nanos / 1000000000 = 60 then 1000000000 else 0) + t.nanos % 1000000000 =
        t.nanos := by
  have hnanos := t.nanos_lt
  constructor <;> split_ifs <;> omega

/-- **The date and the time of day of a timestamp denote the timestamp.** -/
theorem combine_ofDays (t : Timestamp) {c : Nat} (hc : (c : Int) = t.seconds % 86400) :
    combine (Civil.ofDays (t.seconds / 86400))
      ⟨c / 3600, c / 60 % 60, c % 60 + t.nanos / 1000000000, t.nanos % 1000000000⟩ 0 = .ok t := by
  obtain ⟨hlow, hhigh⟩ := year_of_timestamp t.in_range
  obtain ⟨hsecond, hleap⟩ := second_of_timestamp t hc
  have hdate : (!(Civil.ofDays (t.seconds / 86400)).isValid ||
      (Civil.ofDays (t.seconds / 86400)).year < -262143 ||
      262142 < (Civil.ofDays (t.seconds / 86400)).year) = false := by
    rw [isValid_ofDays, decide_eq_false (Int.not_lt.mpr hlow), decide_eq_false (Int.not_lt.mpr hhigh)]
    rfl
  have hwall : (t.seconds / 86400 * 86400 + (c / 3600 : Nat) * 3600 + (c / 60 % 60 : Nat) * 60 +
      (c % 60 : Nat) - 0 : Int) = t.seconds := by omega
  have hunix : Timestamp.ofUnix? t.seconds t.nanos = some t := dif_pos ⟨t.in_range, t.nanos_lt⟩
  unfold combine
  dsimp only
  rw [hdate, hsecond, hleap, toDays_ofDays, hwall, hunix]
  rfl

/-- **A timestamp is read back from its text.** -/
theorem ofText_render (t : Timestamp) : Timestamp.ofText t.render = .ok t := by
  obtain ⟨c, hc⟩ := Int.eq_ofNat_of_zero_le (Int.emod_nonneg t.seconds (by decide : (86400 : Int) ≠ 0))
  have hclock : c < 86400 := by omega
  have hdate := date_chars (isValid_ofDays (t.seconds / 86400)) (year_of_timestamp t.in_range)
  have hsecond : c % 60 + t.nanos / 1000000000 ≤ 60 := by
    have := t.nanos_lt
    omega
  have hread := clock_chars (h := c / 3600) (m := c / 60 % 60) (by omega) (by omega) hsecond
    (Nat.mod_lt t.nanos (by decide : 0 < 1000000000))
  have hcombine := combine_ofDays t hc.symm
  rw [Timestamp.ofText, Timestamp.render, String.toList_ofList, Timestamp.chars, hc, Int.toNat_natCast]
  simp only [List.append_assoc, List.cons_append]
  have hseparator : ∀ cs, separator ('T' :: cs) = .ok ((), cs) := fun _ => rfl
  have hoffset : offset (trimStart ['Z']) = .ok (0, []) := rfl
  rw [hdate, ok_bind]
  dsimp only
  rw [hseparator, ok_bind]
  dsimp only
  rw [hread, ok_bind]
  dsimp only
  rw [hoffset, ok_bind]
  exact (if_neg (by decide)).trans hcombine

end TokenGate.Proofs.Time.RoundTrip
