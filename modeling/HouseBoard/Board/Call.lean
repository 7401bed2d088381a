/-
HouseBoard.Board.Call — what the controller can be asked.

Each call goes to one endpoint and has its own type of reply.
-/
import HouseBoard.Payload.Command
import HouseBoard.Payload.Ble
import HouseBoard.Rpc

namespace HouseBoard

/-- The endpoints of the controller. -/
inductive Endpoint where
  | device
  | devicesWithAlert
  | alarm
  | garage
  | heaters
  | ble
  | command
  deriving DecidableEq, Repr

namespace Endpoint

/-- The endpoints in the order of their declaration. -/
def all : List Endpoint :=
  [.device, .devicesWithAlert, .alarm, .garage, .heaters, .ble, .command]

/-- The word of an endpoint. -/
def word : Endpoint → String
  | .device => "device"
  | .devicesWithAlert => "devices_with_alert"
  | .alarm => "alarm"
  | .garage => "garage"
  | .heaters => "heaters"
  | .ble => "ble"
  | .command => "command"

/-- Endpoints as words. -/
def codec : Codec Endpoint := .word (all.map fun e => (e.word, e)) word

/-- The name that is shown. -/
def name : Endpoint → String
  | .device => "DeviceState"
  | .devicesWithAlert => "DevicesWithAlert"
  | .alarm => "Alarm"
  | .garage => "Garage"
  | .heaters => "Heaters"
  | .ble => "BleList"
  | .command => "Command"

end Endpoint

/-- A call to the controller. -/
inductive Call where
  | device (did : DeviceRef)
  | devicesWithAlert
  | alarm
  | garage
  | heaters
  | ble
  | command (did : DeviceRef) (command : Command)
  deriving DecidableEq, Repr

namespace Call

/-- The endpoint of a call. -/
def endpoint : Call → Endpoint
  | .device _ => .device
  | .devicesWithAlert => .devicesWithAlert
  | .alarm => .alarm
  | .garage => .garage
  | .heaters => .heaters
  | .ble => .ble
  | .command .. => .command

/-- What a call is answered with. -/
@[reducible] def Reply : Call → Type
  | .device _ => DeviceState
  | .devicesWithAlert => List DeviceState
  | .alarm => AlarmState
  | .garage => GarageState
  | .heaters => HeaterState
  | .ble => BleDeviceList
  | .command .. => DeviceState

/-- Replies as documents. -/
def replyCodec : (c : Call) → Codec c.Reply
  | .device _ => DeviceState.codec
  | .devicesWithAlert => .listOf DeviceState.codec
  | .alarm => AlarmState.codec
  | .garage => GarageState.codec
  | .heaters => HeaterState.codec
  | .ble => BleDeviceList.codec
  | .command .. => DeviceState.codec

end Call

/-- The outcome of a call. -/
abbrev Outcome (c : Call) := Except RpcError c.Reply

end HouseBoard
