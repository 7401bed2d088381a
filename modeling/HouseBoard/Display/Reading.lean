/-
HouseBoard.Display.Reading — measured values as they are shown.

A value that is there has a text, a colour and an icon that depend on it; one that is not has a
text that begins with `N/A`, the neutral colour and an icon that says so.  Absent values are
never shown as numbers.
-/
import HouseBoard.Payload.Device
import HouseBoard.Number.Fixed

namespace HouseBoard

/-- The text for what is not available. -/
def notAvailable : String := "N/A"

/-- The icon of a reading. -/
inductive ReadingIcon where
  | thermometer (icon : ComfortIcon)
  | thermometerEmpty
  | droplet
  | dropletSlash
  | battery (icon : BatteryIcon)
  | bluetoothConnected
  | noSignal
  deriving DecidableEq, Repr

/-- An icon as a document. -/
def ReadingIcon.toJson : ReadingIcon → Json
  | .thermometer icon => .obj [("thermometer", .str icon.word)]
  | .thermometerEmpty => .str "thermometer_empty"
  | .droplet => .str "droplet"
  | .dropletSlash => .str "droplet_slash"
  | .battery icon => .obj [("battery", .str icon.word)]
  | .bluetoothConnected => .str "bluetooth_connected"
  | .noSignal => .str "no_signal"

/-- A value as it is shown, or its absence. -/
inductive Reading where
  | available (label : String) (value : Binary64) (text : String) (color : Color)
      (icon : ReadingIcon)
  | unavailable (label text : String) (color : Color) (icon : ReadingIcon)
  deriving DecidableEq, Repr

namespace Reading

/-! ## The four kinds -/

/-- An absent value with a unit. -/
def absent (label unit : String) (icon : ReadingIcon) : Reading :=
  .unavailable label (notAvailable ++ " " ++ unit) Color.neutral icon

/-- A temperature, to a tenth of a degree. -/
def temperature (label : String) (value : Option Binary64) (domain : Domain)
    (seasonAdjusted : Bool) : Reading :=
  match value with
  | some v =>
    let tier := temperatureTier v domain seasonAdjusted
    .available label v (((v.scale 10 1).round.scale 1 10).oneDecimal ++ " °C") tier.color
      (.thermometer tier.icon)
  | none => absent label "°C" .thermometerEmpty

/-- A value rounded to whole percents. -/
def percentText (v : Binary64) : String :=
  Digits.intText (v.roundWithin (-9223372036854775808) 9223372036854775807) ++ " %"

/-- A humidity. -/
def humidity (label : String) (value : Option Binary64) : Reading :=
  match value with
  | some v => .available label v (percentText v) (Color.ofHumidity v) .droplet
  | none => absent label "%" .dropletSlash

/-- A battery level. -/
def battery (label : String) (level : Option Binary64) : Reading :=
  match level with
  | some v => .available label v (percentText v) Color.neutral (.battery (.ofLevel v))
  | none => absent label "%" (.battery .empty)

/-- A radio link: the signal strength, and the number of packets received. -/
def signal (label : String) (rssi : Option Int) (rxPackets : Option Nat) : Reading :=
  let packets := match rxPackets with
    | some n => Digits.text n
    | none => notAvailable
  match rssi with
  | some r =>
    .available label (Binary64.ofInt r)
      (Digits.intText r ++ " dBm / " ++ packets ++ "p") Color.neutral
      .bluetoothConnected
  | none =>
    .unavailable label (notAvailable ++ " dBm / " ++ packets ++ "p") Color.neutral .noSignal

/-- The reading of a measurement. -/
def ofMeasurement (m : Measurement) (seasonAdjusted : Bool) : Reading :=
  match m.kind with
  | .temperature domain => temperature m.label m.value domain seasonAdjusted
  | .humidity => humidity m.label m.value
  | .battery => battery m.label m.value

/-! ## Parts -/

/-- Whether the value is there. -/
def isAvailable : Reading → Bool
  | .available .. => true
  | .unavailable .. => false

/-- The text that is shown. -/
def text : Reading → String
  | .available _ _ t _ _ => t
  | .unavailable _ t _ _ => t

/-- A reading as a document. -/
def toJson : Reading → Json
  | .available label value text color icon =>
    .obj [("status", .str "available"), ("label", .str label), ("value", Json.real value),
      ("text", .str text), ("color", .str color.text), ("icon", icon.toJson)]
  | .unavailable label text color icon =>
    .obj [("status", .str "unavailable"), ("label", .str label), ("text", .str text),
      ("color", .str color.text), ("icon", icon.toJson)]

end Reading

end HouseBoard
