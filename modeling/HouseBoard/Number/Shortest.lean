/-
HouseBoard.Number.Shortest — the shortest decimal text that reads back.

The numbers that round to a finite value form an interval around it, whose ends belong to it
when the significand is even.  For one digit, two digits and so on, the two neighbours of the
value on that decimal grid are tried; the first grid with a neighbour in the interval gives the
digits, the nearer of two winning and a tie going to the even digit.
-/
import HouseBoard.Number.Binary64

namespace HouseBoard.Binary64

/-- A positive decimal `digits · 10 ^ exponent`. -/
structure Decimal where
  digits : Nat
  exponent : Int
  deriving DecidableEq, Repr

/-- `digits · 10 ^ exponent` as a fraction. -/
def Decimal.fraction (d : Decimal) : Nat × Nat :=
  if 0 ≤ d.exponent then (d.digits * Nat.pow 10 d.exponent.toNat, 1)
  else (d.digits, Nat.pow 10 (-d.exponent).toNat)

/-! ## The interval of a value -/

/-- The numbers that round to one value, in quarters of a smallest step. -/
structure Interval where
  low : Nat
  value : Nat
  high : Nat
  closed : Bool

/-- The interval of the positive value `s · 2^u`; below a power of two the neighbour
is half as far. -/
def interval (s u : Nat) : Interval where
  low := 4 * magnitude s u - (if s = Nat.pow 2 52 ∧ 0 < u then magnitude 1 u else magnitude 2 u)
  value := 4 * magnitude s u
  high := 4 * magnitude s u + magnitude 2 u
  closed := s % 2 = 0

/-- Whether a decimal lies in the interval. -/
def Interval.contains (i : Interval) (d : Decimal) : Bool :=
  let (num, den) := d.fraction
  let x := num * (4 * one)
  if i.closed then decide (i.low * den ≤ x ∧ x ≤ i.high * den)
  else decide (i.low * den < x ∧ x < i.high * den)

/-- Twice the distance of a decimal from the value, over the decimal's denominator. -/
def Interval.distance (i : Interval) (d : Decimal) : Nat :=
  let (num, den) := d.fraction
  (num * (4 * one) - i.value * den) + (i.value * den - num * (4 * one))

/-! ## Choosing the digits -/

/-- The position of the leading decimal digit of `v` smallest steps. -/
def leadingPlace (v : Nat) : Int :=
  if one ≤ v then (Digits.decimal (v / one)).length - 1
  else
    let l := (Digits.decimal (one / v)).length
    if one ≤ v * Nat.pow 10 (l - 1) then -((l : Int) - 1) else -(l : Int)

/-- The better neighbour of the value among the decimals with the given number of digits,
if one reads back. -/
def Interval.neighbour? (i : Interval) (place : Int) (count : Nat) : Option Decimal :=
  let exponent := place - count + 1
  let floor :=
    if 0 ≤ exponent then i.value / (4 * one * Nat.pow 10 exponent.toNat)
    else i.value * Nat.pow 10 (-exponent).toNat / (4 * one)
  let below : Decimal := ⟨floor, exponent⟩
  let above : Decimal :=
    if floor + 1 = Nat.pow 10 count then ⟨Nat.pow 10 (count - 1), exponent + 1⟩
    else ⟨floor + 1, exponent⟩
  match i.contains below, i.contains above with
  | true, true =>
    if i.distance below < i.distance above then some below
    else if i.distance above < i.distance below then some above
    else if floor % 2 = 0 then some below else some above
  | true, false => some below
  | false, true => some above
  | false, false => none

/-- The shortest decimal that rounds to the positive value `s · 2^u`, the nearest of those. -/
def shortest (s u : Nat) : Decimal :=
  let i := interval s u
  let place := leadingPlace (magnitude s u)
  ((List.range 17).findSome? fun k => i.neighbour? place (k + 1)).getD ⟨magnitude s u, -1074⟩

/-! ## Layout -/

/-- Digits and a point: positional while the point falls within sixteen digits or five zeros,
else with an exponent. -/
def Decimal.text (d : Decimal) : String :=
  let digits := Digits.decimal d.digits
  let point := digits.length + d.exponent
  let zeros (n : Int) := List.replicate n.toNat '0'
  String.ofList <|
    if 0 ≤ d.exponent ∧ point ≤ 16 then digits ++ zeros d.exponent ++ ['.', '0']
    else if 0 < point ∧ point ≤ 16 then digits.take point.toNat ++
      '.' :: digits.drop point.toNat
    else if -5 < point ∧ point ≤ 0 then '0' :: '.' :: (zeros (-point) ++ digits)
    else
      let exponent := 'e' :: (Digits.intText (point - 1)).toList
      match digits with
      | [c] => c :: exponent
      | c :: cs => c :: '.' :: (cs ++ exponent)
      | [] => exponent

/-- The shortest text of a finite value that reads back, always with a point or an exponent. -/
def shortestText (negative : Bool) (s u : Nat) : String :=
  let body := if s = 0 then "0.0" else (shortest s u).text
  if negative then "-" ++ body else body

end HouseBoard.Binary64
