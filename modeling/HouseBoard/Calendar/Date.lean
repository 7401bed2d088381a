/-
HouseBoard.Calendar.Date — dates of the proleptic Gregorian calendar.

A date is counted in days from 1970-01-01.  The count works on years that begin in March, so
that the leap day is the last of its year, and on periods of 400 years, which all have 146097
days.
-/
import HouseBoard.Text.Digits

namespace HouseBoard

/-- A year, a month from 1 to 12 and a day of the month. -/
structure Date where
  year : Int
  month : Nat
  day : Nat
  deriving DecidableEq, Repr, Inhabited

namespace Date

/-! ## Which dates there are -/

/-- Whether a year has a 29th of February. -/
def isLeap (year : Int) : Bool := year % 4 = 0 && (year % 100 ≠ 0 || year % 400 = 0)

/-- The number of days of a month. -/
def daysIn (year : Int) (month : Nat) : Nat :=
  if month = 2 then (if isLeap year then 29 else 28)
  else if month = 4 ∨ month = 6 ∨ month = 9 ∨ month = 11 then 30
  else 31

/-- A date that is in the calendar, which has the years from -9999 to 9999. -/
def Valid (d : Date) : Prop :=
  -9999 ≤ d.year ∧ d.year ≤ 9999 ∧ 1 ≤ d.month ∧ d.month ≤ 12 ∧ 1 ≤ d.day ∧
    d.day ≤ daysIn d.year d.month

instance (d : Date) : Decidable d.Valid := by unfold Valid; infer_instance

/-- The date of the given numbers, if there is one. -/
def of? (year : Int) (month day : Nat) : Option Date :=
  let d : Date := ⟨year, month, day⟩
  if d.Valid then some d else none

/-! ## Counting days -/

/-- The number of days from 1970-01-01. -/
def toDays (d : Date) : Int :=
  let y := if d.month ≤ 2 then d.year - 1 else d.year
  let m : Int := (d.month + 9) % 12
  let dayOfYear := (153 * m + 2) / 5 + d.day - 1
  let yearOfEra := y % 400
  (y / 400) * 146097 + (yearOfEra * 365 + yearOfEra / 4 - yearOfEra / 100 + dayOfYear) - 719468

/-- The date that is a number of days after 1970-01-01. -/
def ofDays (days : Int) : Date :=
  let z := days + 719468
  let era := z / 146097
  let dayOfEra := z % 146097
  let yearOfEra := (dayOfEra - dayOfEra / 1460 + dayOfEra / 36524 - dayOfEra / 146096) / 365
  let dayOfYear := dayOfEra - (365 * yearOfEra + yearOfEra / 4 - yearOfEra / 100)
  let m := (5 * dayOfYear + 2) / 153
  let month := if m < 10 then m + 3 else m - 9
  { year := yearOfEra + era * 400 + (if month ≤ 2 then 1 else 0)
    month := month.toNat
    day := (dayOfYear - (153 * m + 2) / 5 + 1).toNat }

/-- Whether a date is the last of its month. -/
def isMonthEnd (d : Date) : Bool := d.day = daysIn d.year d.month

/-! ## Text -/

/-- Year, month and day with hyphens; the year has at least four digits. -/
def text (d : Date) : List Char :=
  (if d.year < 0 then ['-'] else []) ++ Digits.padded 4 d.year.natAbs ++
    '-' :: Digits.padded 2 d.month
    ++ '-' :: Digits.padded 2 d.day

end Date

end HouseBoard
