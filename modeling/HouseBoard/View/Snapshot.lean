/-
HouseBoard.View.Snapshot — what a view last learned from the controller.

A view shows one report, except for two: the home view has four sections that come and go
independently, and the view of a device shows its report together with that of the controller
that owns it.
-/
import HouseBoard.Payload.Controller
import HouseBoard.Payload.Ble

namespace HouseBoard

/-- The sections of the home view that are known. -/
structure HomeSnapshot where
  heaters : Option HeaterState := none
  alarm : Option AlarmState := none
  devicesWithAlert : Option (List DeviceState) := none
  ble : Option BleDeviceList := none
  deriving DecidableEq, Repr, Inhabited

/-- The report of the controller that owns a device. -/
inductive LiveState where
  | garage (state : GarageState)
  | heaters (state : HeaterState)
  | alarm (state : AlarmState)
  deriving DecidableEq, Repr, Inhabited

/-- The report of a device, with that of its controller if it has one. -/
structure DeviceSnapshot where
  state : DeviceState
  live : Option LiveState
  deriving DecidableEq, Repr, Inhabited

/-- The last known state of a view. -/
inductive Snapshot where
  | home (sections : HomeSnapshot)
  | ble (list : BleDeviceList)
  | garage (state : GarageState)
  | heaters (state : HeaterState)
  | alarm (state : AlarmState)
  | device (snapshot : DeviceSnapshot)
  deriving DecidableEq, Repr, Inhabited

end HouseBoard
