/-
HouseBoard.View.Card — the card of a device.

A card shows a device's name and class, its liveness, its alert if it has one, and its readings
in the order of the report.  A radio sensor always has the same four readings.
-/
import HouseBoard.Display.Reading
import HouseBoard.Payload.Ble
import HouseBoard.Liveness

namespace HouseBoard

/-- What a rendering depends on beside the snapshot. -/
structure ViewContext where
  policy : LivenessPolicy
  seasonAdjusted : Bool
  debug : Bool
  /-- The seconds since the snapshot was taken. -/
  offset : Nat
  deriving DecidableEq, Repr

/-- The card of a device. -/
structure DeviceCard where
  name : String
  cls : DeviceClass
  liveness : LivenessView
  alert : Option AlertBadge
  readings : List Reading
  navigateTo : Option String
  deriving DecidableEq, Repr

/-- The route that a device's view of its controller names. -/
def DeviceState.controllerRoute (d : DeviceState) : Option String :=
  d.uiViewName.map ("devices/" ++ ·)

namespace DeviceCard

/-- The card of a device on the bus. -/
def ofDevice (d : DeviceState) (ctx : ViewContext) : DeviceCard where
  name := d.name
  cls := .caniot
  liveness :=
    (LivenessSample.ofReport d.lastSeenAt d.lastSeenFromNow .caniot ctx.policy).view ctx.offset
  alert := d.alert.map fun a => a.badge true d.controllerRoute
  readings := d.readings.map fun m => Reading.ofMeasurement m ctx.seasonAdjusted
  navigateTo := d.controllerRoute

/-- The card of a radio sensor; such sensors are indoors. -/
def ofBle (d : BleDevice) (ctx : ViewContext) : DeviceCard where
  name := d.name
  cls := .ble
  liveness :=
    (LivenessSample.ofReport d.lastSeenAt d.lastSeenFromNow .ble ctx.policy).view ctx.offset
  alert := d.alert.map fun a => a.badge true none
  readings :=
    [.temperature "temperature" d.temperature .indoor ctx.seasonAdjusted,
      .humidity "humidity" d.humidity,
      .battery "battery" d.batteryLevel, .signal "signal" d.rssi d.rxPackets]
  navigateTo := none

/-- A card as a document; what is missing is left out. -/
def toJson (c : DeviceCard) : Json :=
  .obj <| [("name", .str c.name), ("class", .str c.cls.word), ("liveness", c.liveness.toJson)]
    ++ Json.optional "alert" (c.alert.map AlertBadge.toJson)
    ++ [("readings", Json.ofList Reading.toJson c.readings)]
    ++ Json.optional "navigate_to" (c.navigateTo.map .str)

end DeviceCard

end HouseBoard
