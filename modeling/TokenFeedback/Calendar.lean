import TokenFeedback.Text.Digits

/-!
# Calendar time

Points of time counted in seconds since 1970, on the proleptic Gregorian calendar, and their
texts. A point may lie inside a leap second: then its nanoseconds are at least `10 ^ 9`. Calendars
have leap seconds at the end of a minute only, and a point that is made from its seconds and
nanoseconds keeps to that. One whose nanoseconds are set afterwards may be inside a leap second
behind any second, so a `Timestamp` may be too.

* `Timestamp`: the points that have a date.
* `Timestamp.of?`: the point with the given seconds and nanoseconds, if the calendar has it.
* `Civil.ofDays`: the year, month and day of a day number.
* `Timestamp.rfc3339`, `Timestamp.display`, `Timestamp.compact`: the three texts.
-/

namespace TokenFeedback

/-- A date of the proleptic Gregorian calendar. -/
structure Civil where
  year : Int
  month : Nat
  day : Nat
  deriving Repr, DecidableEq

namespace Civil

/-- The date of a day of the year that begins on the first of March of the given year. -/
def ofMarch (year : Int) (dayOfYear : Nat) : Civil :=
  let marchMonth := (5 * dayOfYear + 2) / 153
  let day := dayOfYear - (153 * marchMonth + 2) / 5 + 1
  let month := if marchMonth < 10 then marchMonth + 3 else marchMonth - 9
  ⟨year + (if month ≤ 2 then 1 else 0), month, day⟩

/-- The date of a day, counted from 1970-01-01. Years are taken to start on the first of March,
so that a leap day is the last day of its year; 146097 days make one cycle of 400 years. -/
def ofDays (days : Int) : Civil :=
  let z := days + 719468
  let era := z / 146097
  let dayOfEra := (z % 146097).toNat
  let yearOfEra :=
    (dayOfEra - dayOfEra / 1460 + dayOfEra / 36524 - dayOfEra / 146096) / 365
  let dayOfYear := dayOfEra - (365 * yearOfEra + yearOfEra / 4 - yearOfEra / 100)
  ofMarch (yearOfEra + era * 400) dayOfYear

/-- Four digits for the years 0 to 9999; all others carry a sign. -/
def yearText (year : Int) : String :=
  if 0 ≤ year ∧ year ≤ 9999 then Text.padded 4 year.toNat
  else (if year < 0 then "-" else "+") ++ Text.padded 4 year.natAbs

def text (d : Civil) : String :=
  yearText d.year ++ "-" ++ Text.padded 2 d.month ++ "-" ++ Text.padded 2 d.day

end Civil

/-- The seconds since 1970 at which the first and the last date of the calendar begin and end:
the years -262143 to 262142. -/
def firstSecond : Int := -8334601228800
def lastSecond : Int := 8210266876799

/-- A point of time that has a date. -/
structure Timestamp where
  secs : Int
  nanos : Nat
  dated : firstSecond ≤ secs ∧ secs ≤ lastSecond ∧ nanos < 2000000000
  deriving DecidableEq

namespace Timestamp

/-- The point with the given seconds and nanoseconds, if it has a date. A leap second that is not
the end of a minute is refused. -/
def of? (secs : Int) (nanos : Nat) : Option Timestamp :=
  if h : (firstSecond ≤ secs ∧ secs ≤ lastSecond ∧ nanos < 2000000000) ∧
      (1000000000 ≤ nanos → secs % 60 = 59) then
    some ⟨secs, nanos, h.1⟩
  else none

/-- A whole second of the unsigned 32-bit count, from 1970 to 2106. -/
def ofWire (secs : UInt32) : Timestamp :=
  ⟨secs.toNat, 0, by
    have := secs.toNat_lt
    simp only [firstSecond, lastSecond]
    omega⟩

def civil (t : Timestamp) : Civil := .ofDays (t.secs / 86400)

/-- The shortest exact fraction of three, six or nine digits, with its point. -/
def fraction (nanos : Nat) : String :=
  if nanos = 0 then ""
  else if nanos % 1000000 = 0 then "." ++ Text.padded 3 (nanos / 1000000)
  else if nanos % 1000 = 0 then "." ++ Text.padded 6 (nanos / 1000)
  else "." ++ Text.padded 9 nanos

/-- `HH:MM:SS` and the fraction. Inside a leap second the second is one more: the sixtieth at the
end of a minute. -/
def clock (t : Timestamp) : String :=
  let second := (t.secs % 86400).toNat
  let leap := t.nanos / 1000000000
  Text.padded 2 (second / 3600) ++ ":" ++ Text.padded 2 (second / 60 % 60) ++ ":" ++
    Text.padded 2 (second % 60 + leap) ++ fraction (t.nanos % 1000000000)

/-- The internet form, such as `1970-01-01T00:00:42+00:00`. -/
def rfc3339 (t : Timestamp) : String := t.civil.text ++ "T" ++ t.clock ++ "+00:00"

/-- The form for people, such as `1970-01-01 00:00:42 UTC`. -/
def display (t : Timestamp) : String := t.civil.text ++ " " ++ t.clock ++ " UTC"

/-- The short internet form, such as `1970-01-01T00:00:42Z`. -/
def compact (t : Timestamp) : String := t.civil.text ++ "T" ++ t.clock ++ "Z"

end Timestamp

end TokenFeedback
