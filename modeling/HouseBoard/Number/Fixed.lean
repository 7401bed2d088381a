/-
HouseBoard.Number.Fixed — a value with one decimal place.

The exact value is rounded to tenths, a tie going to the even tenth, and written out in full
however large it is.
-/
import HouseBoard.Number.Binary64

namespace HouseBoard.Binary64

/-- The number of tenths nearest to a magnitude in smallest steps. -/
def tenths (m : Nat) : Nat := nearestEven (10 * m) one

/-- The value with one decimal; zeros keep their sign, and what is not finite is named. -/
def oneDecimal : Binary64 → String
  | .nan => "NaN"
  | .infinite n => if n then "-inf" else "inf"
  | .finite n s u =>
    let t := tenths (magnitude s u)
    (if n then "-" else "") ++ Digits.text (t / 10) ++ "." ++ Digits.text (t % 10)

end HouseBoard.Binary64
