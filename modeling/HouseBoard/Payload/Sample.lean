/-
HouseBoard.Payload.Sample — reports put together step by step.

A blank report is that of a device that was never heard, has no alert and measures nothing.
Each step says one thing more of the device.
-/
import HouseBoard.Payload.Ble
import HouseBoard.Payload.Command

namespace HouseBoard

/-- An alert without a description. -/
def Alert.plain (kind : AlertKind) (message : String) : Alert := ⟨kind, message, none⟩

/-- The moment of a report of some age, at an instant in milliseconds counted from 1970. -/
def momentOf (now : Int) (age : Nat) : Except Overflow Timestamp :=
  (Timestamp.after now (-Timestamp.signedSeconds age)).map Timestamp.ofMillis

/-! ## Devices -/

namespace DeviceState

/-- A device of which only the name is known. -/
def blank (name : String) : DeviceState := { name }

/-- The device was heard some seconds ago. -/
def seen (d : DeviceState) (now : Int) (age : Nat) : Except Overflow DeviceState := do
  return { d with lastSeenAt := some (← momentOf now age), lastSeenFromNow := some age }

/-- The device has one more measurement. -/
def measure (d : DeviceState) (label : String) (kind : MeasurementKind)
    (value : Option Binary64) : DeviceState :=
  { d with readings := d.readings ++ [⟨label, kind, value⟩] }

end DeviceState

namespace BleDevice

/-- A sensor of which only the address and the name are known. -/
def blank (mac name : String) : BleDevice := { mac, name }

/-- The sensor was heard some seconds ago. -/
def seen (d : BleDevice) (now : Int) (age : Nat) : Except Overflow BleDevice := do
  return { d with lastSeenAt := some (← momentOf now age), lastSeenFromNow := some age }

end BleDevice

/-! ## Controllers -/

/-- An alarm at rest. -/
def AlarmState.quiet (device : DeviceState) (enabled : Bool) : AlarmState := { device, enabled }

/-- A garage whose gate is closed and whose doors do not move. -/
def GarageState.resting (device : DeviceState) (left right : DoorState) : GarageState where
  device
  left := { state := left }
  right := { state := right }
  gate := .closed

/-- Heaters that have power. -/
def HeaterState.powered (device : DeviceState) (heaters : List HeaterMode) : HeaterState where
  device
  heaters
  powerStatus := true

end HouseBoard
