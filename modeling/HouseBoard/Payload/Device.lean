/-
HouseBoard.Payload.Device — what the controller reports of a device on its bus.

A report gives a name, and as far as they are known the device's number, the view of its
controller, its last sign of life, its alert and its measurements.  A measurement whose sensor
is silent has no value.
-/
import HouseBoard.Json.Tagged
import HouseBoard.Alert
import HouseBoard.Display.Comfort
import HouseBoard.Calendar.Timestamp

namespace HouseBoard

/-! ## Measurements -/

/-- What is measured. -/
inductive MeasurementKind where
  | temperature (domain : Domain)
  | humidity
  | battery
  deriving DecidableEq, Repr, Inhabited

namespace MeasurementKind

/-- The fields of a temperature. -/
def temperatureFields : Fields [Domain] :=
  .cons (.required "domain" (.taggedWord Domain.words Domain.word)) .nil

/-- The alternatives by tag. -/
def variants : List (Variant MeasurementKind) :=
  [.ofFields "temperature" temperatureFields (fun (domain, ()) => .temperature domain),
    .plain "humidity" .humidity, .plain "battery" .battery]

/-- A kind as a document. -/
def toJson : MeasurementKind → Json
  | .temperature domain => .tagged "temperature" (temperatureFields.members (domain, ()))
  | .humidity => .tagged "humidity" []
  | .battery => .tagged "battery" []

/-- Kinds as documents. -/
def codec : Codec MeasurementKind := ⟨Variant.read variants, toJson⟩

end MeasurementKind

/-- A value with a label. -/
structure Measurement where
  label : String
  kind : MeasurementKind
  value : Option Binary64
  deriving DecidableEq, Repr, Inhabited

namespace Measurement

/-- The description of measurements. -/
def record : Record Measurement where
  kinds := [String, MeasurementKind, Option Binary64]
  fields :=
    .cons (.required "label" .text) <|
    .cons (.required "kind" MeasurementKind.codec) <|
    .cons (.nullable "value" .real) .nil
  make | (label, kind, value, ()) => { label, kind, value }
  split m := (m.label, m.kind, m.value, ())

/-- Measurements as documents. -/
def codec : Codec Measurement := record.codec

end Measurement

/-! ## Devices -/

/-- The number of a device on the bus. -/
structure DeviceRef where
  number : UInt8
  deriving DecidableEq, Repr, Inhabited

namespace DeviceRef

/-- Device numbers as documents. -/
def codec : Codec DeviceRef where
  read v := ((Codec.upTo 255).read v).map fun n => ⟨UInt8.ofNat n⟩
  write d := Json.nat d.number.toNat

/-- The number in decimal digits. -/
def text (d : DeviceRef) : String := Digits.text d.number.toNat

/-- Reads a number of at most 255, with any leading zeros and an optional plus sign. -/
def ofChars? (cs : List Char) : Option DeviceRef :=
  (Digits.readUpTo? 10 255 cs).map fun n => ⟨UInt8.ofNat n⟩

end DeviceRef

/-- Timestamps as text. -/
def Timestamp.codec : Codec Timestamp := .spelled Timestamp.ofText? Timestamp.text

/-- The report of a device. -/
structure DeviceState where
  name : String
  did : Option DeviceRef := none
  /-- The view of the controller that owns the device. -/
  uiViewName : Option String := none
  lastSeenAt : Option Timestamp := none
  /-- How long ago that was when the report was made, in seconds. -/
  lastSeenFromNow : Option Nat := none
  alert : Option Alert := none
  readings : List Measurement := []
  deriving DecidableEq, Repr, Inhabited

namespace DeviceState

/-- The description of device reports. -/
def record : Record DeviceState where
  kinds := [String, Option DeviceRef, Option String, Option Timestamp, Option Nat, Option Alert,
    List Measurement]
  fields :=
    .cons (.required "name" .text) <|
    .cons (.nullable "did" DeviceRef.codec) <|
    .cons (.nullable "ui_view_name" .text) <|
    .cons (.nullable "last_seen_at" Timestamp.codec) <|
    .cons (.nullable "last_seen_from_now" (.upTo (UInt64.size - 1))) <|
    .cons (.nullable "alert" Alert.codec) <|
    .cons (.defaulted "readings" (.listOf Measurement.codec) []) .nil
  make
    | (name, did, uiViewName, lastSeenAt, lastSeenFromNow, alert, readings, ()) =>
      { name, did, uiViewName, lastSeenAt, lastSeenFromNow, alert, readings }
  split d :=
    (d.name, d.did, d.uiViewName, d.lastSeenAt, d.lastSeenFromNow, d.alert, d.readings, ())

/-- Device reports as documents. -/
def codec : Codec DeviceState := record.codec

end DeviceState

end HouseBoard
