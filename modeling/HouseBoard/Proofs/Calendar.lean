/-
HouseBoard.Proofs.Calendar — the days of a date lead back to it.

Days are counted in years that begin in March and in periods of 400 such years.  Section 1 is
about one year: the month and the day of the month follow from the day of the year, and only a
leap year has a 366th day.  Section 2 is about one period: the year to which a day belongs is
found by divisions that leave the leap days out.
-/
import Mathlib.Tactic.IntervalCases
import HouseBoard.Calendar.Date

namespace HouseBoard.Date

/-! ## Section 1 — years that begin in March -/

theorem isLeap_iff {year : Int} :
    isLeap year = true ↔ year % 4 = 0 ∧ (year % 100 ≠ 0 ∨ year % 400 = 0) := by
  simp [isLeap]

/-- The year of a date, if years began in March. -/
def marchYear (d : Date) : Int := if d.month ≤ 2 then d.year - 1 else d.year

/-- The day of the year of a date, counted from the first of March. -/
def marchDay (d : Date) : Int := (153 * (((d.month : Int) + 9) % 12) + 2) / 5 + d.day - 1

/-- The date of a day of a year that begins in March. -/
def ofMarch (year day : Int) : Date :=
  let m := (5 * day + 2) / 153
  let month := if m < 10 then m + 3 else m - 9
  ⟨year + (if month ≤ 2 then 1 else 0), month.toNat, (day - (153 * m + 2) / 5 + 1).toNat⟩

/-- A year that begins in March ends with the leap day, if it has one. -/
theorem Valid.marchDay_bounds {d : Date} (h : d.Valid) :
    0 ≤ d.marchDay ∧ d.marchDay ≤ 365 ∧
    (d.marchDay = 365 → isLeap (d.marchYear + 1) = true) := by
  obtain ⟨year, month, day⟩ := d
  obtain ⟨-, -, hmonth, hmonth', hday, hday'⟩ := h
  simp only [daysIn, marchDay, marchYear] at *
  interval_cases month
  all_goals grind

/-- The day of the year tells the month and the day of the month. -/
theorem Valid.ofMarch_eq {d : Date} (h : d.Valid) : ofMarch d.marchYear d.marchDay = d := by
  obtain ⟨year, month, day⟩ := d
  obtain ⟨-, -, hmonth, hmonth', hday, hday'⟩ := h
  simp only [daysIn, marchDay, marchYear, ofMarch, mk.injEq] at *
  interval_cases month
  all_goals grind

/-! ## Section 2 — periods of 400 years -/

/-- The days of a period before a year of it. -/
def daysBefore (year : Int) : Int := 365 * year + year / 4 - year / 100

/-- The year of a period to which a day of it belongs. -/
def yearOfEra (day : Int) : Int := (day - day / 1460 + day / 36524 - day / 146096) / 365

theorem toDays_eq (d : Date) :
    d.toDays = d.marchYear / 400 * 146097 +
      (daysBefore (d.marchYear % 400) + d.marchDay) - 719468 := by
  unfold daysBefore
  rw [Int.mul_comm 365]
  rfl

theorem ofDays_eq (days : Int) :
    ofDays days =
      ofMarch (yearOfEra ((days + 719468) % 146097) + (days + 719468) / 146097 * 400)
        ((days + 719468) % 146097 - daysBefore (yearOfEra ((days + 719468) % 146097))) := rfl

/-- A day belongs to the year that is told by the century, the leap years of the century, and
the years since. -/
theorem yearOfEra_parts {century cycle year day : Int} (hcentury : 0 ≤ century ∧ century ≤ 3)
    (hcycle : 0 ≤ cycle ∧ cycle ≤ 24) (hyear : 0 ≤ year ∧ year ≤ 3) (hday : 0 ≤ day ∧ day ≤ 365)
    (hleap : day = 365 → year = 3 ∧ (cycle = 24 → century = 3)) :
    yearOfEra (36524 * century + 1461 * cycle + 365 * year + day) =
      100 * century + 4 * cycle + year := by
  unfold yearOfEra
  generalize hn : 36524 * century + 1461 * cycle + 365 * year + day = n
  by_cases hlast : n = 146096
  · obtain ⟨rfl, rfl, rfl⟩ : century = 3 ∧ cycle = 24 ∧ year = 3 := by omega
    subst hlast
    rfl
  · have hera : n / 146096 = 0 := by omega
    have hcenturies : n / 36524 = century := by omega
    -- late in the last year of a cycle, the division by 1460 has counted the leap day at
    -- its end already
    by_cases hlate : 1460 ≤ 24 * century + cycle + 365 * year + day
    · have hcycles : n / 1460 = 25 * century + cycle + 1 := by omega
      rw [hera, hcenturies, hcycles]
      omega
    · have hcycles : n / 1460 = 25 * century + cycle := by omega
      rw [hera, hcenturies, hcycles]
      omega

/-- A day belongs to the year that begins as many days before it. -/
theorem yearOfEra_daysBefore {year day : Int} (hyear : 0 ≤ year ∧ year < 400)
    (hday : 0 ≤ day ∧ day ≤ 365) (hleap : day = 365 → isLeap (year + 1) = true) :
    yearOfEra (daysBefore year + day) = year := by
  have hparts : year = 100 * (year / 100) + 4 * (year % 100 / 4) + year % 4 := by omega
  have hbefore : daysBefore year = 36524 * (year / 100) + 1461 * (year % 100 / 4) +
      365 * (year % 4) := by
    unfold daysBefore
    omega
  rw [hbefore, yearOfEra_parts (by omega) (by omega) (by omega) hday ?_, ← hparts]
  intro hlast
  have hyear := isLeap_iff.mp (hleap hlast)
  omega

theorem daysBefore_bounds {year day : Int} (hyear : 0 ≤ year ∧ year < 400)
    (hday : 0 ≤ day ∧ day ≤ 365) :
    0 ≤ daysBefore year + day ∧ daysBefore year + day < 146097 := by
  unfold daysBefore
  omega

/-- The days of a date lead back to it. -/
theorem ofDays_toDays {d : Date} (h : d.Valid) : ofDays d.toDays = d := by
  obtain ⟨hday, hday', hleap⟩ := h.marchDay_bounds
  have hyear : 0 ≤ d.marchYear % 400 ∧ d.marchYear % 400 < 400 := by omega
  have hleap' : d.marchDay = 365 → isLeap (d.marchYear % 400 + 1) = true := by
    intro hlast
    have hyear := isLeap_iff.mp (hleap hlast)
    rw [isLeap_iff]
    omega
  have hbounds := daysBefore_bounds hyear ⟨hday, hday'⟩
  have hera : (d.toDays + 719468) / 146097 = d.marchYear / 400 := by
    rw [toDays_eq]
    omega
  have hdayOfEra : (d.toDays + 719468) % 146097 =
      daysBefore (d.marchYear % 400) + d.marchDay := by
    rw [toDays_eq]
    omega
  rw [ofDays_eq, hera, hdayOfEra, yearOfEra_daysBefore hyear ⟨hday, hday'⟩ hleap',
    Int.add_comm (daysBefore _), Int.add_sub_cancel, Int.emod_add_ediv_mul, h.ofMarch_eq]

end HouseBoard.Date
