/-
HouseBoard.Text.Digits — numbers written in digits.

A digit has a value in a base, a number is read from a non-empty run of digits by the usual
positional sum, and a number is written in base ten without leading zeros, or padded with zeros
to a width.  Reading stops at nothing: a character that is no digit refuses the whole run.
-/

namespace HouseBoard.Digits

/-! ## Single digits -/

/-- The value of a digit or letter, letters counting on from ten in either case. -/
def value? (c : Char) : Option Nat :=
  if c.isDigit then some (c.toNat - '0'.toNat)
  else if 'a' ≤ c ∧ c ≤ 'z' then some (c.toNat - 'a'.toNat + 10)
  else if 'A' ≤ c ∧ c ≤ 'Z' then some (c.toNat - 'A'.toNat + 10)
  else none

/-- The value of a digit of the given base. -/
def valueIn? (base : Nat) (c : Char) : Option Nat :=
  (value? c).filter (· < base)

/-- The lower-case hexadecimal digit of a number below sixteen. -/
def hexDigit (n : Nat) : Char :=
  if n < 10 then Char.ofNat ('0'.toNat + n) else Char.ofNat ('a'.toNat + (n - 10))

/-! ## Reading -/

/-- Extends a number by the digits that follow it. -/
def extend? (base : Nat) : Nat → List Char → Option Nat
  | n, [] => some n
  | n, c :: cs => (valueIn? base c).bind fun d => extend? base (n * base + d) cs

/-- Reads a non-empty run of digits. -/
def read? (base : Nat) : List Char → Option Nat
  | [] => none
  | cs => extend? base 0 cs

/-- Reads a number that may carry one plus sign. -/
def readPlus? (base : Nat) : List Char → Option Nat
  | '+' :: cs => read? base cs
  | cs => read? base cs

/-- Reads a number of at most `bound` that may carry one plus sign. -/
def readUpTo? (base bound : Nat) (cs : List Char) : Option Nat :=
  (readPlus? base cs).filter (· ≤ bound)

/-! ## Writing -/

/-- The decimal digits of a number, without leading zeros. -/
def decimal (n : Nat) : List Char := Nat.toDigits 10 n

/-- The decimal digits of a number, with zeros in front up to the given width. -/
def padded (width n : Nat) : List Char :=
  List.replicate (width - (decimal n).length) '0' ++ decimal n

/-- Two hexadecimal digits of a number below 256. -/
def hexPair (n : Nat) : List Char := [hexDigit (n / 16), hexDigit (n % 16)]

/-- Four hexadecimal digits of a number below 65536. -/
def hexQuad (n : Nat) : List Char := hexPair (n / 256) ++ hexPair (n % 256)

/-- The decimal text of a number. -/
def text (n : Nat) : String := String.ofList (decimal n)

/-- The decimal text of an integer, with a minus sign when it is negative. -/
def intText : Int → String
  | .ofNat n => text n
  | .negSucc n => "-" ++ text (n + 1)

end HouseBoard.Digits
