/-
HouseBoard.Number.Reading — floating point values from text.

Two readers stand here.  `ofText?` reads a free-standing number: an optional sign, then a name
of infinity or of a NaN, or digits with an optional point and exponent; the result is the
nearest value.  `ofParts?` is the reader of the payload format, which works on a 64-bit
significand and a table of powers of ten, and refuses what is beyond the range.
-/
import HouseBoard.Number.Binary64

namespace HouseBoard.Binary64

/-! ## Free-standing numbers -/

/-- `digits · 10 ^ exponent`, rounded once; far exponents are cut off before any
power is taken. -/
def ofDecimal (negative : Bool) (digits : Nat) (exponent : Int) : Binary64 :=
  let size := (Digits.decimal digits).length + exponent
  if digits = 0 ∨ size < -330 then .finite negative 0 0
  else if 310 < size then .infinite negative
  else if 0 ≤ exponent then ofRatio negative (digits * Nat.pow 10 exponent.toNat) 1
  else ofRatio negative digits (Nat.pow 10 (-exponent).toNat)

/-- Splits a leading run of decimal digits off. -/
def splitDigits (cs : List Char) : List Char × List Char :=
  (cs.takeWhile Char.isDigit, cs.dropWhile Char.isDigit)

/-- Reads an exponent that stands at the end of a number. -/
def exponent? : List Char → Option Int
  | [] => some 0
  | c :: cs =>
    if c = 'e' ∨ c = 'E' then
      match cs with
      | '-' :: ds => (Digits.read? 10 ds).map fun n => -(n : Int)
      | ds => (Digits.readPlus? 10 ds).map fun n => (n : Int)
    else none

/-- Reads digits with an optional point, at least one digit in all, and an optional exponent. -/
def unsigned? (negative : Bool) (cs : List Char) : Option Binary64 := do
  let (whole, rest) := splitDigits cs
  let (part, rest) := match rest with
    | '.' :: ds => splitDigits ds
    | ds => ([], ds)
  let digits ← Digits.read? 10 (whole ++ part)
  let e ← exponent? rest
  return ofDecimal negative digits (e - part.length)

/-- Reads a name of infinity or of a NaN in any case, or a number. -/
def magnitude? (negative : Bool) (cs : List Char) : Option Binary64 :=
  let name := cs.map Char.toLower
  if name = "inf".toList ∨ name = "infinity".toList then some (.infinite negative)
  else if name = "nan".toList then some .nan
  else unsigned? negative cs

/-- Reads a free-standing number. -/
def ofText? (s : String) : Option Binary64 :=
  match s.toList with
  | '-' :: cs => magnitude? true cs
  | '+' :: cs => magnitude? false cs
  | cs => magnitude? false cs

/-! ## Numbers of the payload format -/

/-- A power of ten as a value. -/
def powerOfTen (k : Nat) : Binary64 := ofRatio false (Nat.pow 10 k) 1

/-- A significand below 2^64 times a power of ten, by one multiplication or division with the
nearest power; the table of powers ends at 308, past which a division is made in two steps and a
product is out of range. -/
def ofParts? (negative : Bool) (significand : Nat) (exponent : Int) : Option Binary64 :=
  let f := ofNat significand
  let result :=
    if 0 ≤ exponent then
      if significand = 0 then f
      else if exponent ≤ 308 then mul f (powerOfTen exponent.toNat)
      else .infinite false
    else if -308 ≤ exponent then div f (powerOfTen (-exponent).toNat)
    else if -616 ≤ exponent then div (div f (powerOfTen 308))
      (powerOfTen (-exponent - 308).toNat)
    else zero
  if result.isFinite then some (if negative then result.neg else result) else none

end HouseBoard.Binary64
