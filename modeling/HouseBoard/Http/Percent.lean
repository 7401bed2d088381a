/-
HouseBoard.Http.Percent — percent signs in paths.

A percent sign and two hexadecimal digits stand for an octet; a percent sign before anything
else stands for itself.
-/
import HouseBoard.Text.Digits

namespace HouseBoard.Percent

/-- The octets of a character. -/
def octets (c : Char) : List UInt8 := (String.singleton c).toUTF8.toList

/-- The octets that a path stands for. -/
def decode : List Char → List UInt8
  | '%' :: high :: low :: rest =>
    match Digits.read? 16 [high, low] with
    | some n => n.toUInt8 :: decode rest
    | none => octets '%' ++ decode (high :: low :: rest)
  | c :: rest => octets c ++ decode rest
  | [] => []

/-- The text that a path stands for, if its octets are one. -/
def decodeText? (cs : List Char) : Option String := String.fromUTF8? ⟨(decode cs).toArray⟩

end HouseBoard.Percent
