/-
HouseBoard.Proofs.Clock — timestamps are displayed by the clock they were written by.

A text shows a time if it is the date and the time of day in one form, and the text and the time
determine each other (Section 1).  What is displayed of a timestamp shows the time in the offset
it was written with (Section 2), so one instant is displayed in as many ways as there are
offsets in which it is reported (Section 3).
-/
import HouseBoard.Proofs.Calendar
import HouseBoard.Proofs.Timestamps
import HouseBoard.View.Model

namespace HouseBoard

/-! ## Section 1 — clocks -/

/-- A date and a time of day. -/
structure ClockTime where
  date : Date
  hour : Nat
  minute : Nat
  second : Nat
  deriving DecidableEq

namespace ClockTime

/-- A time of a day of the calendar whose year has four digits. -/
structure Valid (c : ClockTime) : Prop where
  date : c.date.Valid
  year : 0 ≤ c.date.year
  hour : c.hour ≤ 23
  minute : c.minute ≤ 59
  second : c.second ≤ 59

/-- The seconds since 1970-01-01 00:00:00 by the same clock. -/
def seconds (c : ClockTime) : Int :=
  c.date.toDays * 86400 + (c.hour * 3600 + c.minute * 60 + c.second : Nat)

/-- The form `YYYY-MM-DD HH:MM:SS`. -/
def chars (c : ClockTime) : List Char :=
  Digits.padded 4 c.date.year.natAbs ++ '-' ::
    (Digits.padded 2 c.date.month ++ '-' :: (Digits.padded 2 c.date.day ++
    ' ' :: (Digits.padded 2 c.hour ++ ':' ::
      (Digits.padded 2 c.minute ++ ':' :: Digits.padded 2 c.second))))

/-- Numbers of one width are told apart by their digits. -/
theorem padded_append_inj {width m n : Nat} (hwidth : 0 < width) (hm : m < 10 ^ width)
    (hn : n < 10 ^ width) {rest rest' : List Char}
    (h : Digits.padded width m ++ rest = Digits.padded width n ++ rest') :
    m = n ∧ rest = rest' := by
  have hread := Timestamp.digits?_padded width m hwidth hm rest
  rw [h, Timestamp.digits?_padded width n hwidth hn, Option.some.injEq, Prod.mk.injEq] at hread
  exact ⟨hread.1.symm, hread.2.symm⟩

theorem Valid.lt {c : ClockTime} (h : c.Valid) :
    c.date.year.natAbs < 10 ^ 4 ∧ c.date.month < 10 ^ 2 ∧ c.date.day < 10 ^ 2 ∧
      c.hour < 10 ^ 2 ∧ c.minute < 10 ^ 2 ∧
      c.second < 10 ^ 2 := by
  obtain ⟨⟨-, hyear, -, hmonth, -, hday⟩, hyear', hhour, hminute, hsecond⟩ := h
  have hlast : Date.daysIn c.date.year c.date.month ≤ 31 := by
    unfold Date.daysIn
    grind
  exact ⟨by omega, by omega, by omega, by omega, by omega, by omega⟩

/-- No two times have the same text. -/
theorem Valid.eq_of_chars {c c' : ClockTime} (h : c.Valid) (h' : c'.Valid)
    (heq : c.chars = c'.chars) : c = c' := by
  obtain ⟨hyear, hmonth, hday, hhour, hminute, hsecond⟩ := h.lt
  obtain ⟨hyear', hmonth', hday', hhour', hminute', hsecond'⟩ := h'.lt
  obtain ⟨years, heq⟩ := padded_append_inj (by decide) hyear hyear' heq
  obtain ⟨months, heq⟩ := padded_append_inj (by decide) hmonth hmonth' (List.cons.inj heq).2
  obtain ⟨days, heq⟩ := padded_append_inj (by decide) hday hday' (List.cons.inj heq).2
  obtain ⟨hours, heq⟩ := padded_append_inj (by decide) hhour hhour' (List.cons.inj heq).2
  obtain ⟨minutes, heq⟩ := padded_append_inj (by decide) hminute hminute' (List.cons.inj heq).2
  obtain ⟨seconds, -⟩ :=
    padded_append_inj (by decide) hsecond hsecond' (congrArg (· ++ []) (List.cons.inj heq).2)
  have := h.year
  have := h'.year
  obtain ⟨⟨year, month, day⟩, hour, minute, second⟩ := c
  obtain ⟨⟨year', month', day'⟩, hour', minute', second'⟩ := c'
  simp only at *
  obtain rfl : year = year' := by omega
  rw [months, days, hours, minutes, seconds]

/-- No two times are as many seconds after 1970. -/
theorem Valid.eq_of_seconds {c c' : ClockTime} (h : c.Valid) (h' : c'.Valid)
    (heq : c.seconds = c'.seconds) : c = c' := by
  obtain ⟨hdate, -, hhour, hminute, hsecond⟩ := h
  obtain ⟨hdate', -, hhour', hminute', hsecond'⟩ := h'
  obtain ⟨date, hour, minute, second⟩ := c
  obtain ⟨date', hour', minute', second'⟩ := c'
  simp only [seconds, mk.injEq] at *
  have hdays : date.toDays = date'.toDays := by omega
  refine ⟨?_, by omega, by omega, by omega⟩
  rw [← Date.ofDays_toDays hdate, hdays, Date.ofDays_toDays hdate']

/-- A text shows a number of seconds since 1970-01-01 00:00:00. -/
def Shows (text : String) (seconds : Int) : Prop :=
  ∃ c : ClockTime, c.Valid ∧ c.seconds = seconds ∧ text.toList = c.chars

/-- A text shows one time, and a time is shown by one text. -/
theorem Shows.iff {text text' : String} {seconds seconds' : Int} (h : Shows text seconds)
    (h' : Shows text' seconds') : text = text' ↔ seconds = seconds' := by
  obtain ⟨c, hc, rfl, htext⟩ := h
  obtain ⟨c', hc', rfl, htext'⟩ := h'
  constructor
  · rintro rfl
    rw [hc.eq_of_chars hc' (htext.symm.trans htext')]
  · intro heq
    rw [← String.toList_inj, htext, htext', hc.eq_of_seconds hc' heq]

end ClockTime

/-! ## Section 2 — what is displayed -/

namespace Timestamp

/-- What is displayed of a timestamp shows the time in its own offset. -/
theorem Expressible.shows {t : Timestamp} (h : t.Expressible) :
    ClockTime.Shows t.display (t.unixSeconds + t.offset * 60) := by
  refine ⟨⟨t.date, t.hour, t.minute, t.second⟩,
    ⟨h.date, h.year, h.hour, h.minute, h.second⟩, ?_, ?_⟩
  · exact (Int.sub_add_cancel _ _).symm
  · simp [display, ClockTime.chars, Date.text, Int.not_lt.mpr h.year]

/-- Timestamps of one instant are as many seconds after 1970. -/
theorem Expressible.unixSeconds_eq {t t' : Timestamp} (h : t.Expressible) (h' : t'.Expressible)
    (hsame : t.instant = t'.instant) : t.unixSeconds = t'.unixSeconds := by
  have hnano := h.nano
  have hnano' := h'.nano
  unfold instant at hsame
  omega

/-- One instant is displayed alike exactly if it is written in the same offset. -/
theorem Expressible.display_eq_iff {t t' : Timestamp} (h : t.Expressible) (h' : t'.Expressible)
    (hsame : t.instant = t'.instant) : t.display = t'.display ↔ t.offset = t'.offset := by
  rw [h.shows.iff h'.shows, h.unixSeconds_eq h' hsame]
  omega

/-- What is displayed of a timestamp shows the time in UTC exactly if it was written in UTC. -/
theorem Expressible.shows_utc_iff {t : Timestamp} (h : t.Expressible) :
    ClockTime.Shows t.display t.unixSeconds ↔ t.offset = 0 := by
  constructor
  · intro hutc
    have := (hutc.iff h.shows).mp rfl
    omega
  · intro hzero
    simpa [hzero] using h.shows

end Timestamp

/-! ## Section 3 — badges and sirens -/

namespace Timestamp

/-- Whatever is reported of one instant, in whatever offset: the badge of a device and the last
siren show the date and the time of that offset.  They are the same text for two reports exactly
if the offsets are the same, and they show the date and the time in UTC exactly if the offset is
zero. -/
theorem shown_as_written {w w' : String} {t t' : Timestamp} (h : ofText? w = some t)
    (h' : ofText? w' = some t') (hsame : t.instant = t'.instant) (s : LivenessSample)
    (offset : Nat) (a : AlarmState) (ctx : ViewContext) :
    let badge (t : Timestamp) := LivenessSample.badge { s with lastSeenAt := some t } offset
    let siren (t : Timestamp) :=
      (AlarmState.render { a with lastSirenAt := some t } ctx).lastSiren
    let label := "(active " ++ humanize (addSeconds s.age offset) ++ " ago)"
    (∃ time, ClockTime.Shows time (t.unixSeconds + t.offset * 60) ∧
      badge t = time ++ " " ++ label ∧ siren t = time) ∧
      (badge t = badge t' ↔ t.offset = t'.offset) ∧
      (siren t = siren t' ↔ t.offset = t'.offset) ∧
      ((∃ time, ClockTime.Shows time t.unixSeconds ∧ badge t = time ++ " " ++ label) ↔
        t.offset = 0) ∧
      (ClockTime.Shows (siren t) t.unixSeconds ↔ t.offset = 0) := by
  intro badge siren label
  have ht := read?_expressible h
  have ht' := read?_expressible h'
  have hbadge (t : Timestamp) : badge t = t.display ++ " " ++ label := rfl
  have hsiren (t : Timestamp) : siren t = t.display := rfl
  refine ⟨⟨t.display, ht.shows, hbadge t, hsiren t⟩, ?_, ?_, ?_, ?_⟩
  · rw [hbadge, hbadge, String.append_left_inj, String.append_left_inj,
      ht.display_eq_iff ht' hsame]
  · rw [hsiren, hsiren, ht.display_eq_iff ht' hsame]
  · simp only [hbadge, String.append_left_inj]
    rw [← ht.shows_utc_iff]
    constructor
    · rintro ⟨time, hshows, rfl⟩
      exact hshows
    · intro hshows
      exact ⟨t.display, hshows, rfl⟩
  · rw [hsiren, ht.shows_utc_iff]

/-- An instant of the leap day, which is the first of March two hours east of UTC. -/
theorem shown_as_written_leap_day :
    ∃ t t', ofText? "2024-03-01T00:10:00+02:00" = some t ∧
      ofText? "2024-02-29T17:10:00-05:00" = some t' ∧
      t.instant = t'.instant ∧
      LivenessSample.badge ⟨some t, 45, 60⟩ 5 ≠ LivenessSample.badge ⟨some t', 45, 60⟩ 5 ∧
      ¬ ClockTime.Shows (AlarmState.render { (default : AlarmState) with lastSirenAt := some t }
        ⟨.default, false, false, 0⟩).lastSiren t.unixSeconds := by
  let t : Timestamp := ⟨⟨2024, 3, 1⟩, 0, 10, 0, 0, 120⟩
  let t' : Timestamp := ⟨⟨2024, 2, 29⟩, 17, 10, 0, 0, -300⟩
  have h : ofText? "2024-03-01T00:10:00+02:00" = some t := by decide +kernel
  have h' : ofText? "2024-02-29T17:10:00-05:00" = some t' := by decide +kernel
  have hsame : t.instant = t'.instant := by decide
  obtain ⟨-, hbadge, -, -, hsiren⟩ :=
    shown_as_written h h' hsame ⟨none, 45, 60⟩ 5 default ⟨.default, false, false, 0⟩
  refine ⟨t, t', h, h', hsame, fun heq => ?_, fun hutc => ?_⟩
  · exact absurd (hbadge.mp heq) (by decide)
  · exact absurd (hsiren.mp hutc) (by decide)

/-- Half past midnight of the new year, an hour east of UTC, is shown as another year than the
same instant in UTC. -/
theorem shown_years_apart :
    let siren (t : Timestamp) :=
      (AlarmState.render { (default : AlarmState) with lastSirenAt := some t }
        ⟨.default, false, false, 0⟩).lastSiren
    ∃ t t', ofText? "2025-01-01T00:30:00+01:00" = some t ∧
      ofText? "2024-12-31T23:30:00Z" = some t' ∧
      t.instant = t'.instant ∧
      LivenessSample.badge ⟨some t, 45, 60⟩ 0 = "2025-01-01 00:30:00 (active 45s ago)" ∧
      LivenessSample.badge ⟨some t', 45, 60⟩ 0 = "2024-12-31 23:30:00 (active 45s ago)" ∧
      siren t = "2025-01-01 00:30:00" ∧ siren t' = "2024-12-31 23:30:00" ∧
      ¬ ClockTime.Shows (siren t) t.unixSeconds := by
  let t : Timestamp := ⟨⟨2025, 1, 1⟩, 0, 30, 0, 0, 60⟩
  have h : ofText? "2025-01-01T00:30:00+01:00" = some t := by decide +kernel
  refine ⟨t, ⟨⟨2024, 12, 31⟩, 23, 30, 0, 0, 0⟩, h, by decide +kernel, by decide,
    by decide +kernel, by decide +kernel, by decide +kernel, by decide +kernel, fun hutc => ?_⟩
  exact absurd ((read?_expressible h).shows_utc_iff.mp hutc) (by decide)

end Timestamp

end HouseBoard
