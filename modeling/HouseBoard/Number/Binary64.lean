/-
HouseBoard.Number.Binary64 — sensor values as 64-bit binary floating point, computed exactly.

A finite value is a significand times a power of two on the grid of the smallest step, 2^-1074;
every operation is the exact result rounded to the nearest value, a tie going to the even
significand.  All of it is arithmetic on naturals and integers, so that each law about colours,
tiers and texts can be read off the definitions.
-/
import HouseBoard.Text.Digits

namespace HouseBoard

/-- A 64-bit floating point value; `finite negative s u` stands for ± s · 2^u · 2^-1074. -/
inductive Binary64 where
  | nan
  | infinite (negative : Bool)
  | finite (negative : Bool) (significand unit : Nat)
  deriving DecidableEq, Repr, Inhabited

namespace Binary64

/-! ## The grid -/

/-- The number of smallest steps in one. -/
def one : Nat := Nat.pow 2 1074

/-- The zero without a sign. -/
def zero : Binary64 := .finite false 0 0

/-- The quotient rounded to the nearest natural number, a tie going to the even one. -/
def nearestEven (num den : Nat) : Nat :=
  let q := num / den
  let r := num % den
  if 2 * r < den then q
  else if den < 2 * r then q + 1
  else q + q % 2

/-- The value nearest to `num / den` smallest steps. -/
def ofSteps (negative : Bool) (num den : Nat) : Binary64 :=
  let unit := Nat.log2 (num / den) - 52
  let significand := nearestEven num (den * Nat.pow 2 unit)
  let (significand, unit) := if significand = Nat.pow 2 53 then (Nat.pow 2 52, unit + 1)
    else (significand, unit)
  if unit ≤ 2045 then .finite negative significand unit else .infinite negative

/-- The value nearest to the magnitude `num / den`. -/
def ofRatio (negative : Bool) (num den : Nat) : Binary64 :=
  ofSteps negative (num * one) den

/-- The value nearest to a natural number. -/
def ofNat (n : Nat) : Binary64 := ofRatio false n 1

/-- The value nearest to an integer; zero has no sign. -/
def ofInt (i : Int) : Binary64 := ofRatio (decide (i < 0)) i.natAbs 1

/-- The value nearest to an integer number of parts of a smallest step; zero has no sign. -/
def ofSignedSteps (num : Int) (den : Nat) : Binary64 :=
  ofSteps (decide (num < 0)) num.natAbs den

/-- The number of smallest steps of a finite value. -/
def magnitude (significand unit : Nat) : Nat := significand * Nat.pow 2 unit

/-- The number of smallest steps of a finite value, with its sign. -/
def steps (negative : Bool) (significand unit : Nat) : Int :=
  if negative then -(magnitude significand unit : Int) else (magnitude significand unit : Int)

/-- The rational number that a finite value stands for. -/
def toRat? : Binary64 → Option Rat
  | .finite negative s u => some (mkRat (steps negative s u) one)
  | _ => none

/-- Neither infinite nor a NaN. -/
def isFinite : Binary64 → Bool
  | .finite .. => true
  | _ => false

/-! ## Arithmetic -/

/-- The value with the opposite sign. -/
def neg : Binary64 → Binary64
  | .nan => .nan
  | .infinite n => .infinite (!n)
  | .finite n s u => .finite (!n) s u

/-- The value times a positive fraction; a zero keeps its sign. -/
def scale (x : Binary64) (num den : Nat) : Binary64 :=
  match x with
  | .finite n s u => ofSteps n (magnitude s u * num) den
  | x => x

/-- The product of a value and an integer. -/
def mulInt (x : Binary64) (i : Int) : Binary64 :=
  match x with
  | .nan => .nan
  | .infinite n => if i = 0 then .nan else .infinite (n != decide (i < 0))
  | .finite n s u => ofSteps (n != decide (i < 0)) (magnitude s u * i.natAbs) 1

/-- The sum of a value and an integer. -/
def addInt (x : Binary64) (i : Int) : Binary64 :=
  match x with
  | .finite n s u => ofSignedSteps (steps n s u + i * one) 1
  | x => x

/-- The product of two magnitudes, the second finite. -/
def mul (x y : Binary64) : Binary64 :=
  match x, y with
  | .finite n s u, .finite n' s' u' => ofSteps (n != n') (magnitude s u * magnitude s' u') one
  | .finite .., y => y
  | x, _ => x

/-- The quotient of a value by a finite one that is not zero. -/
def div (x y : Binary64) : Binary64 :=
  match x, y with
  | .finite n s u, .finite n' s' u' => ofSteps (n != n') (magnitude s u * one) (magnitude s' u')
  | x, _ => x

/-! ## Rounding to whole numbers -/

/-- The whole number nearest to a magnitude in smallest steps, a half going up. -/
def nearestWhole (m : Nat) : Nat := (2 * m + one) / (2 * one)

/-- The nearest whole value, a half going away from zero; the sign is kept. -/
def round : Binary64 → Binary64
  | .finite n s u => ofRatio n (nearestWhole (magnitude s u)) 1
  | x => x

/-- The nearest integer within bounds, a half going away from zero; a NaN counts as zero. -/
def roundWithin (lo hi : Int) : Binary64 → Int
  | .nan => 0
  | .infinite n => if n then lo else hi
  | .finite n s u =>
    let whole : Int := nearestWhole (magnitude s u)
    max lo (min hi (if n then -whole else whole))

/-! ## Order -/

/-- Strictly below a fraction; a NaN is below nothing. -/
def below (x : Binary64) (num : Int) (den : Nat) : Bool :=
  match x with
  | .nan => false
  | .infinite n => n
  | .finite n s u => decide (steps n s u * den < num * one)

/-- The value brought into the range from zero to one, a NaN counting as zero. -/
def clampUnit (x : Binary64) : Binary64 :=
  match x with
  | .nan => zero
  | .infinite n => if n then zero else ofNat 1
  | .finite n s u =>
    if n then zero
    else if one < magnitude s u then ofNat 1
    else .finite false s u

end Binary64

end HouseBoard
