import Mathlib.Tactic.SplitIfs
import Mathlib.Tactic.Set
import TokenGate.Time.Timestamp

/-! # Dates of day numbers

An era of 400 years has four centuries, a century 25 spans of four years, and a span four years;
only the last year of a span may have a leap day, and the last span of a century has one only in the
last century (`InEra`). The year that is found for a day of an era is the one that the day is in
(`yearOfEra_of_inEra`). So the date of a day number is in the calendar (`isValid_ofDays`) and has
this number (`toDays_ofDays`), and the dates of timestamps have the years of timestamps
(`year_of_timestamp`). -/

namespace TokenGate.Proofs.Time.Civil

open TokenGate.Time TokenGate.Time.Civil

/-- A day of an era is in a century, a span, a year and on a day of the year. -/
structure InEra (d c q k t : Int) : Prop where
  century : 0 ≤ c ∧ c ≤ 3
  span : 0 ≤ q ∧ q ≤ 24
  year : 0 ≤ k ∧ k ≤ 3
  day : 0 ≤ t ∧ t ≤ 365
  leap : t = 365 → k = 3 ∧ (q = 24 → c = 3)
  sum : d = 36524 * c + 1461 * q + 365 * k + t

theorem exists_inEra {d : Int} (h : 0 ≤ d ∧ d < 146097) : ∃ c q k t, InEra d c q k t := by
  -- The last day of an era, and that of a span, belongs to the last century or year.
  let c := min (d / 36524) 3
  let r := d - 36524 * c
  let k := min (r % 1461 / 365) 3
  refine ⟨c, r / 1461, k, r % 1461 - 365 * k, ?_, ?_, ?_, ?_, ?_, ?_⟩ <;> omega

/-- **The year of a day of an era.** -/
theorem yearOfEra_of_inEra {d c q k t : Int} (h : InEra d c q k t) :
    (d - d / 1460 + d / 36524 - d / 146096) / 365 = 100 * c + 4 * q + k := by
  obtain ⟨hc, hq, hk, ht, hleap, rfl⟩ := h
  set d := 36524 * c + 1461 * q + 365 * k + t with hd
  have hcentury : d / 36524 - d / 146096 = c := by
    have hlast : d = 146096 ∨ d < 36524 * (c + 1) := by
      by_cases h365 : t = 365 <;> omega
    rcases hlast with hlast | hlast
    · omega
    · have hfloor : d / 36524 = c := by omega
      omega
  -- One day of a span may be counted off too early, which is in its last year.
  have hspan : (d / 1460 = 25 * c + q ∧ 24 * c + q + 365 * k + t ≤ 1459) ∨
      (d / 1460 = 25 * c + q + 1 ∧ 1460 ≤ 24 * c + q + 365 * k + t) := by omega
  rcases hspan with ⟨hspan, hbefore⟩ | ⟨hspan, hbehind⟩
  · have hrest : d - d / 1460 + d / 36524 - d / 146096 = 365 * (100 * c + 4 * q + k) + t := by omega
    have ht : t ≤ 364 := by omega
    omega
  · have hrest : d - d / 1460 + d / 36524 - d / 146096 = 365 * (100 * c + 4 * q + k) + (t - 1) := by
      omega
    have ht : 1 ≤ t := by omega
    omega

/-! ### Dates -/

/-- The month of a day of the year, where the year runs from March. -/
def monthFromMarch (t : Nat) : Nat := (5 * t + 2) / 153

/-- The days of the year in front of a month, where the year runs from March. -/
def daysBefore (m : Nat) : Nat := (153 * m + 2) / 5

theorem monthFromMarch_le {t : Nat} (h : t ≤ 365) : monthFromMarch t ≤ 11 := by
  unfold monthFromMarch
  omega

theorem daysBefore_le (t : Nat) :
    daysBefore (monthFromMarch t) ≤ t ∧ t < daysBefore (monthFromMarch t + 1) := by
  unfold daysBefore monthFromMarch
  omega

/-- A day number is that of a day of an era. -/
structure IsDay (n era d c q k : Int) (t : Nat) : Prop where
  inEra : InEra d c q k t
  sum : n + 719468 = 146097 * era + d

theorem exists_isDay (n : Int) : ∃ era d c q k t, IsDay n era d c q k t := by
  obtain ⟨c, q, k, t, h⟩ := exists_inEra (d := (n + 719468) % 146097) (by omega)
  obtain ⟨t, rfl⟩ := Int.eq_ofNat_of_zero_le h.day.1
  exact ⟨(n + 719468) / 146097, _, c, q, k, t, h, by omega⟩

variable {n era d c q k : Int} {t : Nat}

theorem era_of_isDay (h : IsDay n era d c q k t) :
    (n + 719468) / 146097 = era ∧ (n + 719468) % 146097 = d := by
  obtain ⟨⟨hc, hq, hk, ht, hleap, hd⟩, hsum⟩ := h
  have hlt : 0 ≤ d ∧ d < 146097 := by omega
  constructor <;> omega

theorem leapDays_of_inEra {t : Int} (h : InEra d c q k t) :
    (100 * c + 4 * q + k) / 4 = 25 * c + q ∧ (100 * c + 4 * q + k) / 100 = c := by
  obtain ⟨-, hq, hk, -, -, -⟩ := h
  constructor <;> omega

/-- **The date of a day number.** -/
theorem ofDays_of_isDay (h : IsDay n era d c q k t) :
    ofDays n = ⟨if monthFromMarch t < 10 then 100 * c + 4 * q + k + era * 400
        else 100 * c + 4 * q + k + era * 400 + 1,
      if monthFromMarch t < 10 then monthFromMarch t + 3 else monthFromMarch t - 9,
      t - daysBefore (monthFromMarch t) + 1⟩ := by
  obtain ⟨hera, hrem⟩ := era_of_isDay h
  obtain ⟨hfour, hhundred⟩ := leapDays_of_inEra h.inEra
  have hday : d - (365 * (100 * c + 4 * q + k) + (25 * c + q) - c) = t := by
    have hsum := h.inEra.sum
    omega
  unfold ofDays monthFromMarch daysBefore
  dsimp only
  rw [hera, hrem, yearOfEra_of_inEra h.inEra, hfour, hhundred, hday, Int.toNat_natCast]
  by_cases hm : (5 * t + 2) / 153 < 10
  · have hmonth : ¬ (5 * t + 2) / 153 + 3 ≤ 2 := by omega
    simp only [if_pos hm, if_neg hmonth]
  · have hlt := h.inEra.day.2
    have hmonth : (5 * t + 2) / 153 - 9 ≤ 2 := by omega
    simp only [if_neg hm, if_pos hmonth]

theorem yearInEra_of_inEra {t : Int} (h : InEra d c q k t) (era : Int) :
    (100 * c + 4 * q + k + era * 400) / 400 = era ∧
      (100 * c + 4 * q + k + era * 400) % 400 = 100 * c + 4 * q + k := by
  obtain ⟨hc, hq, hk, -, -, -⟩ := h
  constructor <;> omega

theorem day_of_month (t : Nat) :
    (153 * (monthFromMarch t : Int) + 2) / 5 + (t - daysBefore (monthFromMarch t) + 1 : Nat) - 1 = t := by
  have hle := (daysBefore_le t).1
  unfold daysBefore at hle ⊢
  omega

/-- **A day number is that of its date.** -/
theorem toDays_ofDays (n : Int) : (ofDays n).toDays = n := by
  obtain ⟨era, d, c, q, k, t, h⟩ := exists_isDay n
  obtain ⟨hera, hyear⟩ := yearInEra_of_inEra h.inEra era
  obtain ⟨hfour, hhundred⟩ := leapDays_of_inEra h.inEra
  have hmonth := monthFromMarch_le (t := t) (by have := h.inEra.day.2; omega)
  have hday := day_of_month t
  have hsum : (100 * c + 4 * q + k) * 365 + (25 * c + q) - c + t = d := by
    have hsum := h.inEra.sum
    omega
  rw [ofDays_of_isDay h]
  unfold toDays
  dsimp only
  generalize monthFromMarch t = m at *
  by_cases hm : m < 10
  · have hmarch : (m + 3 + 9) % 12 = m := by omega
    simp only [if_pos hm, if_neg (show ¬ m + 3 ≤ 2 by omega), hmarch, hera, hyear, hfour, hhundred,
      hday, hsum]
    have := h.sum
    omega
  · have hmarch : (m - 9 + 9) % 12 = m := by omega
    simp only [if_neg hm, if_pos (show m - 9 ≤ 2 by omega), hmarch, Int.add_sub_cancel, hera, hyear,
      hfour, hhundred, hday, hsum]
    have := h.sum
    omega

theorem isLeap_of_inEra (h : InEra d c q k 365) (era : Int) :
    isLeap (100 * c + 4 * q + k + era * 400 + 1) = true := by
  obtain ⟨hc, hq, -, -, hleap, -⟩ := h
  obtain ⟨rfl, hlast⟩ := hleap rfl
  rw [isLeap, Bool.and_eq_true, Bool.or_eq_true, decide_eq_true_eq, decide_eq_true_eq,
    decide_eq_true_eq]
  refine ⟨by omega, ?_⟩
  by_cases hq24 : q = 24
  · exact Or.inr (by have := hlast hq24; omega)
  · exact Or.inl (by omega)

/-- **The date of a day number is in the calendar.** -/
theorem isValid_ofDays (n : Int) : (ofDays n).isValid = true := by
  obtain ⟨era, d, c, q, k, t, h⟩ := exists_isDay n
  have ht : t ≤ 365 := by
    have := h.inEra.day.2
    omega
  have hleap : t = 365 → isLeap (100 * c + 4 * q + k + era * 400 + 1) = true := by
    rintro rfl
    exact isLeap_of_inEra h.inEra era
  have hmonth := monthFromMarch_le ht
  obtain ⟨hbefore, hbehind⟩ := daysBefore_le t
  rw [ofDays_of_isDay h]
  unfold isValid monthLength daysBefore at *
  generalize monthFromMarch t = m at *
  simp only [Bool.and_eq_true, decide_eq_true_eq]
  by_cases hm : m < 10
  · simp only [if_pos hm, if_neg (show m + 3 ≠ 2 by omega)]
    split_ifs <;> omega
  · simp only [if_neg hm]
    by_cases hlast : t = 365
    · simp only [hleap hlast, if_true]
      split_ifs <;> omega
    · split_ifs <;> omega

/-- **The years of timestamps.** -/
theorem year_of_timestamp {s : Int} (h : minSeconds ≤ s ∧ s ≤ maxSeconds) :
    -262143 ≤ (ofDays (s / 86400)).year ∧ (ofDays (s / 86400)).year ≤ 262142 := by
  obtain ⟨era, d, c, q, k, t, hday⟩ := exists_isDay (s / 86400)
  have hmonth : monthFromMarch t < 10 ↔ t < 306 := by
    unfold monthFromMarch
    omega
  have hsum := hday.sum
  obtain ⟨hc, hq, hk, ht, -, hd⟩ := hday.inEra
  have hdays : -96465292 ≤ s / 86400 ∧ s / 86400 ≤ 95026236 := by
    unfold minSeconds maxSeconds at h
    omega
  -- The years begin in January and end in December, the eleventh and the tenth month from March.
  have hfirst : -656 < era ∨ era = -656 ∧
      (256 < 100 * c + 4 * q + k ∨ 100 * c + 4 * q + k = 256 ∧ 306 ≤ t) := by omega
  have hlast : era < 655 ∨ era = 655 ∧
      (100 * c + 4 * q + k < 142 ∨ 100 * c + 4 * q + k = 142 ∧ t < 306) := by omega
  rw [ofDays_of_isDay hday]
  simp only [hmonth]
  split_ifs <;> omega

end TokenGate.Proofs.Time.Civil
