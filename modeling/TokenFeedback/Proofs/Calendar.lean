import TokenFeedback.Calendar
import TokenFeedback.Proofs.Text.Fields

/-!
# Dates and times and what their text tells of them

Every day has its own date, which is shown by counting the days of a date back. A cycle of 400 years
is 4 centuries of 36524 days and one day more, a century is 25 cycles of 1461 days less one day, and
a cycle of four years is 4 years of 365 days and one day more. The days that are one more are at the
end of February and so, counted from March, the last of their year.

* `Cycles`: a day of the 400 years by centuries, cycles, years and days; `Cycles.yearOfEra` is the
  division that finds the year.
* `Civil.toDays`, `Civil.toDays_ofDays`: **the day of a date**, and that it is the day it came from.
* `Civil.text_inj`, `Timestamp.clock_inj`: the fields of a text.
* `Timestamp.rfc3339_eq_iff`: **which points of time have the same text.**
-/

namespace TokenFeedback

/-! ### Days and dates -/

/-- A day of the 400 years, counted from their first of March: behind whole centuries, then whole
cycles of four years, then whole years. The last day of a year is a leap day. -/
structure Cycles (n century cycle year day : Nat) : Prop where
  sum : n = 36524 * century + 1461 * cycle + 365 * year + day
  century_le : century ≤ 3
  cycle_le : cycle ≤ 24
  year_le : year ≤ 3
  day_le : day ≤ 365
  leap : day = 365 → year = 3 ∧ (cycle < 24 ∨ century = 3)

namespace Cycles

variable {n c q y d : Nat}

/-- The leap day at the end of 400 years is in their last century, and the one at the end of four
years is in the last of these. -/
theorem exists_of_lt (h : n < 146097) : ∃ c q y d, Cycles n c q y d := by
  obtain ⟨c, hc, hcn⟩ : ∃ c ≤ 3, 36524 * c ≤ n ∧ (n < 36524 * (c + 1) ∨ c = 3) := by
    refine ⟨min (n / 36524) 3, ?_, ?_⟩ <;> omega
  obtain ⟨q, hq, hqn⟩ : ∃ q ≤ 24,
      36524 * c + 1461 * q ≤ n ∧ n < 36524 * c + 1461 * (q + 1) := by
    refine ⟨(n - 36524 * c) / 1461, ?_, ?_⟩ <;> omega
  obtain ⟨y, hy, hyn⟩ : ∃ y ≤ 3, 36524 * c + 1461 * q + 365 * y ≤ n ∧
      (n < 36524 * c + 1461 * q + 365 * (y + 1) ∨ y = 3) := by
    refine ⟨min ((n - 36524 * c - 1461 * q) / 365) 3, ?_, ?_⟩ <;> omega
  refine ⟨c, q, y, n - (36524 * c + 1461 * q + 365 * y), ?_, hc, hq, hy, ?_, ?_⟩ <;> omega

/-- The year a day is in. The quotient by 1460 takes off the leap days of the cycles of four years
before this one, and one day more near the end of this one, which is in its last year then. -/
theorem yearOfEra (h : Cycles n c q y d) :
    (n - n / 1460 + n / 36524 - n / 146096) / 365 = 100 * c + 4 * q + y := by
  obtain ⟨hn, hc, hq, hy, hd, hleap⟩ := h
  obtain ⟨extra, hcycles, hextra⟩ :
      ∃ extra, n / 1460 = 25 * c + q + extra ∧ extra ≤ d ∧ d < 365 + extra := by
    by_cases hfull : 1460 ≤ 24 * c + q + 365 * y + d
    · exact ⟨1, by omega, by omega⟩
    · exact ⟨0, by omega, by omega⟩
  obtain ⟨last, hcenturies, hlast⟩ : ∃ last, n / 36524 = c + last ∧ n / 146096 = last := by
    by_cases hend : n = 146096
    · exact ⟨1, by omega, by omega⟩
    · exact ⟨0, by omega, by omega⟩
  rw [hcycles, hcenturies, hlast]
  -- The quotients are found. What is left to see is linear, and slow to see with them in sight.
  clear hcycles hcenturies hlast hleap
  have hyears : n - (25 * c + q + extra) + (c + last) - last =
      365 * (100 * c + 4 * q + y) + (d - extra) := by omega
  have hrest : (d - extra) / 365 = 0 := Nat.div_eq_of_lt (by omega)
  rw [hyears, Nat.mul_add_div (by decide), hrest, Nat.add_zero]

/-- A day is behind the days of the years before its own. -/
theorem start (h : Cycles n c q y d) {year : Nat} (hyear : year = 100 * c + 4 * q + y) :
    n = 365 * year + year / 4 - year / 100 + d := by
  obtain ⟨hn, hc, hq, hy, hd, hleap⟩ := h
  have hcycles : year / 4 = 25 * c + q := by omega
  have hcenturies : year / 100 = c := by omega
  omega

end Cycles

namespace Civil

/-- The days from the first of March of the year 0 to that of the given year. -/
def yearStart (year : Int) : Int := 365 * year + year / 4 - year / 100 + year / 400

/-- The year at whose first of March the year of a date begins. -/
def marchYear (date : Civil) : Int := date.year - if date.month ≤ 2 then 1 else 0

/-- The days from the first of March to a date. -/
def dayOfYear (date : Civil) : Nat :=
  let marchMonth := if date.month ≤ 2 then date.month + 9 else date.month - 3
  (153 * marchMonth + 2) / 5 + (date.day - 1)

/-- The day of a date, counted from 1970-01-01. -/
def toDays (date : Civil) : Int := yearStart date.marchYear + date.dayOfYear - 719468

/-- Months counted from March, and the days before them. -/
theorem marchMonth_bounds {day : Nat} (h : day ≤ 365) :
    (5 * day + 2) / 153 ≤ 11 ∧ (153 * ((5 * day + 2) / 153) + 2) / 5 ≤ day ∧
      day ≤ (153 * ((5 * day + 2) / 153) + 2) / 5 + 30 := by
  omega

theorem march_ofMarch {day : Nat} (year : Int) (h : day ≤ 365) :
    (ofMarch year day).marchYear = year ∧ (ofMarch year day).dayOfYear = day := by
  obtain ⟨hmonth, hbefore, -⟩ := marchMonth_bounds h
  simp only [ofMarch, marchYear, dayOfYear]
  by_cases hspring : (5 * day + 2) / 153 < 10
  · have hmarch : ¬ (5 * day + 2) / 153 + 3 ≤ 2 := by omega
    simp only [if_pos hspring, if_neg hmarch, Nat.add_sub_cancel]
    exact ⟨by omega, Nat.add_sub_cancel' hbefore⟩
  · have hmarch : (5 * day + 2) / 153 - 9 ≤ 2 := by omega
    have hback : (5 * day + 2) / 153 - 9 + 9 = (5 * day + 2) / 153 :=
      Nat.sub_add_cancel (Nat.le_of_not_lt fun hlt => hspring (by omega))
    simp only [if_neg hspring, if_pos hmarch, hback, Nat.add_sub_cancel]
    exact ⟨by omega, Nat.add_sub_cancel' hbefore⟩

/-- Every day is a day of a year that begins in March. -/
theorem exists_ofMarch (days : Int) :
    ∃ year, ∃ day ≤ 365, ofDays days = ofMarch year day ∧
      days + 719468 = yearStart year + day := by
  obtain ⟨era, hera⟩ : ∃ era, (days + 719468) / 146097 = era := ⟨_, rfl⟩
  obtain ⟨n, hn⟩ : ∃ n, ((days + 719468) % 146097).toNat = n := ⟨_, rfl⟩
  obtain ⟨c, q, y, d, h⟩ := Cycles.exists_of_lt (show n < 146097 by omega)
  have hstart := h.start rfl
  have hday : n - (365 * (100 * c + 4 * q + y) + (100 * c + 4 * q + y) / 4 -
      (100 * c + 4 * q + y) / 100) = d := Nat.sub_eq_of_eq_add' hstart
  refine ⟨↑(100 * c + 4 * q + y) + era * 400, d, h.day_le, ?_, ?_⟩
  · simp only [ofDays, hera, hn, h.yearOfEra, hday]
  · have hyear : 100 * c + 4 * q + y < 400 := by
      have := h.century_le
      have := h.cycle_le
      have := h.year_le
      omega
    generalize 100 * c + 4 * q + y = year at *
    have hcycles : ((year : Int) + era * 400) / 4 = year / 4 + era * 100 := by omega
    have hcenturies : ((year : Int) + era * 400) / 100 = year / 100 + era * 4 := by omega
    have heras : ((year : Int) + era * 400) / 400 = era := by omega
    rw [yearStart, hcycles, hcenturies, heras]
    omega

/-- **The day of a date** is the day whose date it is. -/
theorem toDays_ofDays (days : Int) : (ofDays days).toDays = days := by
  obtain ⟨year, day, hday, hdate, hdays⟩ := exists_ofMarch days
  obtain ⟨hyear, hdayOfYear⟩ := march_ofMarch year hday
  rw [hdate, toDays, hyear, hdayOfYear]
  omega

theorem ofDays_inj {days days' : Int} (h : ofDays days = ofDays days') : days = days' := by
  rw [← toDays_ofDays days, h, toDays_ofDays]

/-- The months and days of a date have two digits. -/
theorem ofDays_bounds (days : Int) : (ofDays days).month ≤ 12 ∧ (ofDays days).day ≤ 31 := by
  obtain ⟨year, day, hday, hdate, -⟩ := exists_ofMarch days
  obtain ⟨hmonth, -, hlast⟩ := marchMonth_bounds hday
  rw [hdate]
  simp only [ofMarch]
  exact ⟨by split <;> omega, by omega⟩

/-! ### The text of a date -/

/-- The sign in front of the digits of a year. -/
def yearSign (year : Int) : String :=
  if 0 ≤ year ∧ year ≤ 9999 then "" else if year < 0 then "-" else "+"

theorem yearText_eq (year : Int) :
    yearText year = yearSign year ++ Text.padded 4 year.natAbs := by
  by_cases hplain : 0 ≤ year ∧ year ≤ 9999
  · have habs : year.toNat = year.natAbs := by omega
    rw [yearText, yearSign, if_pos hplain, if_pos hplain, habs, String.empty_append]
  · rw [yearText, yearSign, if_neg hplain, if_neg hplain]

theorem mem_yearSign {year : Int} {c : Char} (h : c ∈ (yearSign year).toList) :
    c = '-' ∨ c = '+' := by
  rw [yearSign] at h
  split at h
  · exact absurd h List.not_mem_nil
  · split at h
    · exact .inl (List.mem_singleton.1 h)
    · exact .inr (List.mem_singleton.1 h)

/-- Just the years before 0 have a minus. -/
theorem yearSign_eq_minus {year : Int} : yearSign year = "-" ↔ year < 0 := by
  rw [yearSign]
  split
  · exact iff_of_false (by decide) (by omega)
  · split
    · exact iff_of_true rfl ‹_›
    · exact iff_of_false (by decide) ‹_›

/-- The digits of a year are those of its count without the sign. -/
theorem digits_yearText (year : Int) :
    (yearText year).toList.filter Char.isDigit = (Text.padded 4 year.natAbs).toList := by
  have hsign : (yearSign year).toList.filter Char.isDigit = [] := by
    apply List.filter_eq_nil_iff.2
    intro c hc
    rcases mem_yearSign hc with rfl | rfl <;> decide
  have hdigits : (Text.padded 4 year.natAbs).toList.filter Char.isDigit =
      (Text.padded 4 year.natAbs).toList :=
    List.filter_eq_self.2 fun c hc => Text.isDigit_of_mem_padded hc
  rw [yearText_eq, String.toList_append, List.filter_append, hsign, hdigits, List.nil_append]

theorem yearText_inj {year year' : Int} (h : yearText year = yearText year') : year = year' := by
  have hdigits : Text.padded 4 year.natAbs = Text.padded 4 year'.natAbs := by
    rw [← String.toList_inj, ← digits_yearText, ← digits_yearText, h]
  have habs := Text.padded_inj hdigits
  have hsign : yearSign year = yearSign year' := by
    rw [yearText_eq, yearText_eq, habs] at h
    exact (String.append_left_inj _).1 h
  rcases Int.natAbs_eq_natAbs_iff.1 habs with hsame | hopposite
  · exact hsame
  · have hbefore : year < 0 ↔ year' < 0 := by
      rw [← yearSign_eq_minus, hsign, yearSign_eq_minus]
    omega

theorem text_inj {date date' : Civil} (hmonth : date.month < 100 ∧ date'.month < 100)
    (hday : date.day < 100 ∧ date'.day < 100) (h : date.text = date'.text) : date = date' := by
  obtain ⟨hyear, hm, hd⟩ := Text.eq_of_padded hmonth hday h
  cases date
  cases date'
  rw [Civil.mk.injEq]
  exact ⟨yearText_inj hyear, hm, hd⟩

/-- A date is written with digits and signs. -/
theorem mem_text {date : Civil} {c : Char} (h : c ∈ date.text.toList) :
    c.isDigit = true ∨ c = '-' ∨ c = '+' := by
  have hdash {c : Char} (h : c ∈ "-".toList) : c = '-' := List.mem_singleton.1 h
  simp only [text, yearText_eq, String.toList_append, List.mem_append] at h
  rcases h with ((((hsign | hdigit) | hc) | hdigit) | hc) | hdigit
  · exact .inr (mem_yearSign hsign)
  · exact .inl (Text.isDigit_of_mem_padded hdigit)
  · exact .inr (.inl (hdash hc))
  · exact .inl (Text.isDigit_of_mem_padded hdigit)
  · exact .inr (.inl (hdash hc))
  · exact .inl (Text.isDigit_of_mem_padded hdigit)

end Civil

namespace Timestamp

/-! ### The text of a time of day -/

/-- The nanoseconds that a fraction of a second says: its digits, with zeros up to nine. -/
def ofFraction (text : String) : Nat :=
  Nat.ofDigitChars 10 (text.toList.drop 1) 0 * 10 ^ (10 - text.length)

theorem ofFraction_padded {width n : Nat} (hwidth : 0 < width) (fits : n < 10 ^ width) :
    ofFraction ("." ++ Text.padded width n) = n * 10 ^ (9 - width) := by
  have hlength : 10 - ("." ++ Text.padded width n).length = 9 - width := by
    rw [String.length_append, Text.length_padded hwidth fits]
    exact Nat.add_sub_add_left 1 9 width
  have hdigits : ("." ++ Text.padded width n).toList.drop 1 = (Text.padded width n).toList := by
    rw [String.toList_append]
    rfl
  rw [ofFraction, hlength, hdigits, Text.value_padded]

/-- The fraction says all nanoseconds, however many digits it has. -/
theorem ofFraction_fraction {nanos : Nat} (h : nanos < 1000000000) :
    ofFraction (fraction nanos) = nanos := by
  rw [fraction]
  split
  · next hzero => rw [hzero]; rfl
  · split
    · next hmilli =>
      rw [ofFraction_padded (by decide) (Nat.div_lt_of_lt_mul h)]
      exact Nat.div_mul_cancel (Nat.dvd_of_mod_eq_zero hmilli)
    · split
      · next hmicro =>
        rw [ofFraction_padded (by decide) (Nat.div_lt_of_lt_mul h)]
        exact Nat.div_mul_cancel (Nat.dvd_of_mod_eq_zero hmicro)
      · rw [ofFraction_padded (by decide) h, Nat.sub_self, Nat.pow_zero, Nat.mul_one]

/-- A point of time is inside at most one leap second. -/
theorem leap_le (t : Timestamp) : t.nanos / 1000000000 ≤ 1 := by
  obtain ⟨-, -, hnanos⟩ := t.dated
  omega

theorem length_clock {hour minute second : Nat} (hhour : hour < 100) (hminute : minute < 100)
    (hsecond : second < 100) :
    (Text.padded 2 hour ++ ":" ++ Text.padded 2 minute ++ ":" ++
      Text.padded 2 second).length = 8 := by
  have hcolon : ":".length = 1 := rfl
  rw [String.length_append, String.length_append, String.length_append, String.length_append,
    hcolon, Text.length_padded (by decide) hhour, Text.length_padded (by decide) hminute,
    Text.length_padded (by decide) hsecond]

/-- Points of time that the clock shows the same are in the same minute of their day, at the same
second that it counts and the same fraction of it. -/
theorem clock_inj {t t' : Timestamp} (h : t.clock = t'.clock) :
    t.secs % 86400 / 60 = t'.secs % 86400 / 60 ∧
      t.secs % 60 + ↑(t.nanos / 1000000000) = t'.secs % 60 + ↑(t'.nanos / 1000000000) ∧
      t.nanos % 1000000000 = t'.nanos % 1000000000 := by
  have hbounds (t : Timestamp) : (t.secs % 86400).toNat / 3600 < 100 ∧
      (t.secs % 86400).toNat / 60 % 60 < 100 ∧
      (t.secs % 86400).toNat % 60 + t.nanos / 1000000000 < 100 := by
    have := t.leap_le
    omega
  obtain ⟨hhour, hminute, hsecond⟩ := hbounds t
  obtain ⟨hhour', hminute', hsecond'⟩ := hbounds t'
  obtain ⟨hclock, hfraction⟩ := Text.eq_of_width h <|
    (length_clock hhour hminute hsecond).trans (length_clock hhour' hminute' hsecond').symm
  obtain ⟨hhours, hminutes, hseconds⟩ :=
    Text.eq_of_padded ⟨hminute, hminute'⟩ ⟨hsecond, hsecond'⟩ hclock
  have hhours := Text.padded_inj hhours
  have hnanos : t.nanos % 1000000000 = t'.nanos % 1000000000 := by
    rw [← ofFraction_fraction (Nat.mod_lt t.nanos (by decide)), hfraction,
      ofFraction_fraction (Nat.mod_lt t'.nanos (by decide))]
  exact ⟨by omega, by omega, hnanos⟩

/-- The second time is shown for the first: the first is inside a leap second that is not the end of
a minute, and the second is as far in the second that comes behind. -/
structure ShownAs (t t' : Timestamp) : Prop where
  leap : 1000000000 ≤ t.nanos
  notLast : t.secs % 60 ≠ 59
  secs : t'.secs = t.secs + 1
  nanos : t'.nanos + 1000000000 = t.nanos

/-- The second behind has the same date, hour and minute, for it is not the first of a minute. -/
theorem ShownAs.rfc3339_eq {t t' : Timestamp} (h : t.ShownAs t') : t.rfc3339 = t'.rfc3339 := by
  obtain ⟨hleap, hlast, hsecs, hnanos⟩ := h
  have hin := t.leap_le
  have hday : t.secs / 86400 = t'.secs / 86400 := by omega
  have hhour : (t.secs % 86400).toNat / 3600 = (t'.secs % 86400).toNat / 3600 := by omega
  have hminute : (t.secs % 86400).toNat / 60 % 60 = (t'.secs % 86400).toNat / 60 % 60 := by omega
  have hsecond : (t.secs % 86400).toNat % 60 + t.nanos / 1000000000 =
      (t'.secs % 86400).toNat % 60 + t'.nanos / 1000000000 := by omega
  have hfraction : t.nanos % 1000000000 = t'.nanos % 1000000000 := by omega
  simp only [rfc3339, civil, clock, hday, hhour, hminute, hsecond, hfraction]

/-- Points of time that are shown the same are on the same day and at the same time of it. -/
theorem rfc3339_inj {t t' : Timestamp} (h : t.rfc3339 = t'.rfc3339) :
    t.secs / 86400 = t'.secs / 86400 ∧ t.clock = t'.clock := by
  have hbounds (t : Timestamp) : t.civil.month < 100 ∧ t.civil.day < 100 := by
    obtain ⟨hmonth, hday⟩ := Civil.ofDays_bounds (t.secs / 86400)
    exact ⟨by rw [civil]; omega, by rw [civil]; omega⟩
  have hmark (t : Timestamp) : 'T' ∉ t.civil.text.toList := by
    intro hmem
    rcases Civil.mem_text hmem with hdigit | hdash | hplus
    · exact absurd hdigit (by decide)
    · exact absurd hdash (by decide)
    · exact absurd hplus (by decide)
  have hzone : t.civil.text ++ "T" ++ t.clock = t'.civil.text ++ "T" ++ t'.clock :=
    (String.append_left_inj _).1 h
  obtain ⟨hdate, hclock⟩ := Text.eq_of_mark rfl (hmark t) (hmark t') hzone
  have hday : t.secs / 86400 = t'.secs / 86400 :=
    Civil.ofDays_inj <| Civil.text_inj ⟨(hbounds t).1, (hbounds t').1⟩
      ⟨(hbounds t).2, (hbounds t').2⟩ hdate
  exact ⟨hday, hclock⟩

/-- **Which points of time are shown the same.** A clock that counts a second more inside a leap
second has a second of its own for it, the sixtieth, at the end of a minute only. -/
theorem rfc3339_eq_iff (t t' : Timestamp) :
    t.rfc3339 = t'.rfc3339 ↔ t = t' ∨ t.ShownAs t' ∨ t'.ShownAs t := by
  constructor
  · intro h
    obtain ⟨hday, hclock⟩ := rfc3339_inj h
    obtain ⟨hminute, hsecond, hfraction⟩ := clock_inj hclock
    have hin := t.leap_le
    have hin' := t'.leap_le
    rcases Nat.lt_trichotomy (t.nanos / 1000000000) (t'.nanos / 1000000000) with hlt | heq | hgt
    · exact .inr (.inr ⟨by omega, by omega, by omega, by omega⟩)
    · left
      have hsecs : t.secs = t'.secs := by omega
      have hnanos : t.nanos = t'.nanos := by omega
      cases t
      cases t'
      rw [Timestamp.mk.injEq]
      exact ⟨hsecs, hnanos⟩
    · exact .inr (.inl ⟨by omega, by omega, by omega, by omega⟩)
  · rintro (rfl | h | h)
    · rfl
    · exact h.rfc3339_eq
    · exact h.rfc3339_eq.symm

end Timestamp

end TokenFeedback
