/-
HouseBoard.Calendar.Timestamp — points in time with the offset they were written in.

Timestamps are read from and written to RFC 3339 text.  Reading is liberal: one other character
may stand for the `T`, letters come in either case, digits after the ninth of a fraction are
dropped, and a leap second is taken for the last nanosecond before it, where one can be.
Writing has one form: no trailing zeros in the fraction, and `Z` for a zero offset.
-/
import HouseBoard.Calendar.Date

namespace HouseBoard

/-- An instant would lie outside the calendar. -/
inductive Overflow where
  | overflow
  deriving DecidableEq, Repr

/-- A local date and time of day, and the offset from UTC in minutes. -/
structure Timestamp where
  date : Date
  hour : Nat
  minute : Nat
  second : Nat
  nano : Nat
  offset : Int
  deriving DecidableEq, Repr, Inhabited

namespace Timestamp

/-! ## The instant -/

/-- The seconds of the local clock since 1970-01-01T00:00:00. -/
def localSeconds (t : Timestamp) : Int :=
  t.date.toDays * 86400 + (t.hour * 3600 + t.minute * 60 + t.second : Nat)

/-- The seconds since 1970-01-01T00:00:00Z. -/
def unixSeconds (t : Timestamp) : Int := t.localSeconds - t.offset * 60

/-- The nanoseconds since 1970-01-01T00:00:00Z; equal for timestamps of the same instant. -/
def instant (t : Timestamp) : Int := t.unixSeconds * 1000000000 + t.nano

/-- The timestamp of a number of seconds and nanoseconds since 1970-01-01T00:00:00Z, in UTC. -/
def ofUnix (seconds : Int) (nano : Nat) : Timestamp :=
  let clock := (seconds % 86400).toNat
  { date := .ofDays (seconds / 86400)
    hour := clock / 3600
    minute := clock % 3600 / 60
    second := clock % 60
    nano
    offset := 0 }

/-- The same instant in UTC. -/
def toUtc (t : Timestamp) : Timestamp := ofUnix t.unixSeconds t.nano

/-- The timestamp of a number of milliseconds since 1970-01-01T00:00:00Z, in UTC. -/
def ofMillis (millis : Int) : Timestamp :=
  ofUnix (millis / 1000) ((millis % 1000).toNat * 1000000)

/-- Whether an instant in milliseconds falls in the years from -9999 to 9999. -/
def inCalendar (millis : Int) : Bool :=
  Date.toDays ⟨-9999, 1, 1⟩ * 86400000 ≤ millis && millis < Date.toDays ⟨10000, 1, 1⟩ * 86400000

/-- A number of seconds taken as a signed one of 64 bits: past the largest, it
counts backwards. -/
def signedSeconds (seconds : Nat) : Int := (seconds : Int).bmod UInt64.size

/-- The instant some seconds after one in milliseconds. -/
def after (millis seconds : Int) : Except Overflow Int :=
  let instant := millis + seconds * 1000
  if inCalendar instant then .ok instant else .error .overflow

/-! ## Writing -/

/-- The date and the time of day to the second, as they are displayed. -/
def display (t : Timestamp) : String :=
  String.ofList <| t.date.text ++ ' ' :: Digits.padded 2 t.hour ++
    ':' :: Digits.padded 2 t.minute
    ++ ':' :: Digits.padded 2 t.second

/-- The fraction of a second without trailing zeros; nothing for a whole second. -/
def fractionText (nano : Nat) : List Char :=
  if nano = 0 then []
  else '.' :: ((Digits.padded 9 nano).reverse.dropWhile (· = '0')).reverse

/-- The offset as hours and minutes with a sign, or `Z`. -/
def offsetText (offset : Int) : List Char :=
  if offset = 0 then ['Z']
  else
    (if offset < 0 then '-' else '+') :: Digits.padded 2 (offset.natAbs / 60)
      ++ ':' :: Digits.padded 2 (offset.natAbs % 60)

/-- The characters of the RFC 3339 text. -/
def chars (t : Timestamp) : List Char :=
  t.date.text ++ 'T' :: Digits.padded 2 t.hour ++ ':' :: Digits.padded 2 t.minute ++
    ':' :: Digits.padded 2 t.second
    ++ fractionText t.nano ++ offsetText t.offset

/-- The RFC 3339 text. -/
def text (t : Timestamp) : String := String.ofList t.chars

/-! ## Reading -/

/-- Reads exactly `count` decimal digits. -/
def digits? (count : Nat) (cs : List Char) : Option (Nat × List Char) :=
  if cs.length < count then none
  else (Digits.read? 10 (cs.take count)).map fun n => (n, cs.drop count)

/-- Reads one given character. -/
def exactly? (c : Char) : List Char → Option (List Char)
  | d :: cs => if d = c then some cs else none
  | [] => none

/-- Reads the separator of date and time: any ASCII character but a digit. -/
def separator? : List Char → Option (List Char)
  | c :: cs => if c.toNat < 128 ∧ ¬c.isDigit then some cs else none
  | [] => none

/-- Reads a fraction of at least one digit after a point, in nanoseconds; zero
without a point. -/
def fraction? : List Char → Option (Nat × List Char)
  | '.' :: cs =>
    let ds := cs.takeWhile Char.isDigit
    (Digits.read? 10 ((ds ++ List.replicate 9 '0').take 9)).bind fun n =>
      if ds = [] then none else some (n, cs.drop ds.length)
  | cs => some (0, cs)

/-- Reads an offset, in minutes, up to the end of the text. -/
def offset? : List Char → Option Int
  | ['Z'] | ['z'] => some 0
  | sign :: cs => do
    let (hours, cs) ← digits? 2 cs
    let cs ← exactly? ':' cs
    let (minutes, cs) ← digits? 2 cs
    if cs ≠ [] ∨ 23 < hours ∨ 59 < minutes then none
    else if sign = '+' then some (hours * 60 + minutes : Nat)
    else if sign = '-' then some (-(hours * 60 + minutes : Nat))
    else none
  | [] => none

/-- Whether a timestamp stands for a leap second: the last second of a month in UTC. -/
def endsMonth (t : Timestamp) : Bool :=
  let u := t.toUtc
  u.hour = 23 && u.minute = 59 && u.second = 59 && u.date.isMonthEnd

/-- Reads RFC 3339 text. -/
def read? (cs : List Char) : Option Timestamp := do
  let (year, cs) ← digits? 4 cs
  let cs ← exactly? '-' cs
  let (month, cs) ← digits? 2 cs
  let cs ← exactly? '-' cs
  let (day, cs) ← digits? 2 cs
  let cs ← separator? cs
  let (hour, cs) ← digits? 2 cs
  let cs ← exactly? ':' cs
  let (minute, cs) ← digits? 2 cs
  let cs ← exactly? ':' cs
  let (second, cs) ← digits? 2 cs
  let (nano, cs) ← fraction? cs
  let offset ← offset? cs
  let date ← Date.of? year month day
  if 23 < hour ∨ 59 < minute then none
  else if second ≤ 59 then some { date, hour, minute, second, nano, offset }
  else if second = 60 then
    let t : Timestamp := { date, hour, minute, second := 59, nano := 999999999, offset }
    if t.endsMonth then some t else none
  else none

/-- Reads RFC 3339 text. -/
def ofText? (s : String) : Option Timestamp := read? s.toList

end Timestamp

end HouseBoard
