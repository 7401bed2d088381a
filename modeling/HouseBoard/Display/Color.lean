/-
HouseBoard.Display.Color — colours and their blends.

A colour is written as a hash and six lower-case hexadecimal digits; the hash may be left out
when it is read.  A blend of two colours is taken channel by channel in 64-bit floating point
and rounded, a half going up.
-/
import HouseBoard.Json.Codec

namespace HouseBoard

/-- Red, green and blue. -/
structure Color where
  r : UInt8
  g : UInt8
  b : UInt8
  deriving DecidableEq, Repr, Inhabited

namespace Color

/-! ## Text -/

/-- A hash and six hexadecimal digits. -/
def text (c : Color) : String :=
  String.ofList <| '#' :: Digits.hexPair c.r.toNat ++ Digits.hexPair c.g.toNat ++
    Digits.hexPair c.b.toNat

/-- The colour of a number of 24 bits. -/
def ofNat (n : Nat) : Color := ⟨UInt8.ofNat (n / 65536), UInt8.ofNat (n / 256), UInt8.ofNat n⟩

/-- What follows the hash, if there is one. -/
def dropHash : List Char → List Char
  | '#' :: cs => cs
  | cs => cs

/-- Reads a colour: six characters that make a hexadecimal number, after an optional hash. -/
def ofText? (s : String) : Option Color :=
  let cs := dropHash s.toList
  if cs.length = 6 then (Digits.readPlus? 16 cs).map ofNat else none

/-- Colours as text. -/
def codec : Codec Color := .spelled ofText? text

/-- What is said of a text that is no colour. -/
def refusal (s : String) : String := "invalid hex color: " ++ s

/-! ## Blends -/

/-- A channel on its way from one value to another. -/
def mix (a b : UInt8) (weight : Binary64) : UInt8 :=
  let v := (weight.mulInt (b.toNat - a.toNat)).addInt a.toNat
  UInt8.ofNat (v.roundWithin 0 255).toNat

/-- The blend of two colours; the weight is brought between zero and one. -/
def interpolate (a b : Color) (weight : Binary64) : Color :=
  let w := weight.clampUnit
  ⟨mix a.r b.r w, mix a.g b.g w, mix a.b b.b w⟩

/-! ## Colours of the dashboard -/

/-- The colour of what is not available. -/
def neutral : Color := ⟨0x80, 0x80, 0x80⟩

/-- The colour of dry air. -/
def dry : Color := ⟨0xfa, 0xf3, 0xca⟩

/-- The colour of wet air. -/
def wet : Color := ⟨0x11, 0x9a, 0xf5⟩

/-- The colour of a humidity in percent, between dry and wet. -/
def ofHumidity (percent : Binary64) : Color := interpolate dry wet (percent.scale 1 100)

end Color

end HouseBoard
