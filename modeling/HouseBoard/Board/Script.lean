/-
HouseBoard.Board.Script — a controller that answers by a script.

The script says what each endpoint answers, which endpoints fail, and how long each takes.  A
log of the calls is kept.  What a call is answered with is looked up when it completes.
-/
import HouseBoard.Board.Call

namespace HouseBoard

/-- A list of entries with one entry replaced. -/
def assign {α β : Type} [DecidableEq α] (a : α) (b : β) (entries : List (α × β)) :
    List (α × β) :=
  (a, b) :: entries.filter fun e => e.1 ≠ a

/-- What the controller answers. -/
structure Script where
  devices : List (DeviceRef × DeviceState) := []
  devicesWithAlert : List DeviceState := []
  alarm : Option AlarmState := none
  garage : Option GarageState := none
  heaters : Option HeaterState := none
  ble : Option BleDeviceList := none
  /-- The endpoints that fail, and how. -/
  failures : List (Endpoint × RpcError) := []
  /-- The milliseconds that endpoints take; the others take none. -/
  delays : List (Endpoint × Nat) := []
  deriving Repr

namespace Script

/-! ## Changing the script -/

/-- Lets a device answer. -/
def setDevice (s : Script) (did : DeviceRef) (state : DeviceState) : Script :=
  { s with devices := assign did state s.devices }

/-- Lets an endpoint fail. -/
def fail (s : Script) (e : Endpoint) (error : RpcError) : Script :=
  { s with failures := assign e error s.failures }

/-- Lets an endpoint answer again. -/
def recover (s : Script) (e : Endpoint) : Script :=
  { s with failures := s.failures.filter fun f => f.1 ≠ e }

/-- Lets an endpoint take some time. -/
def delay (s : Script) (e : Endpoint) (ms : Nat) : Script :=
  { s with delays := assign e ms s.delays }

/-! ## Answers -/

/-- What the script holds for a call. -/
def payload? (s : Script) : (c : Call) → Option c.Reply
  | .device did => s.devices.lookup did
  | .devicesWithAlert => some s.devicesWithAlert
  | .alarm => s.alarm
  | .garage => s.garage
  | .heaters => s.heaters
  | .ble => s.ble
  | .command did _ => s.devices.lookup did

/-- The failure of a call for which the script holds nothing. -/
def missing (e : Endpoint) : RpcError := ⟨.notFound, e.name ++ " not scripted"⟩

/-- The outcome of a call that completes now. -/
def outcome (s : Script) (c : Call) : Outcome c :=
  match s.failures.lookup c.endpoint with
  | some error => .error error
  | none => match s.payload? c with
    | some reply => .ok reply
    | none => .error (missing c.endpoint)

/-- The time that a call takes which is made now. -/
def delayOf (s : Script) (c : Call) : Option Nat := s.delays.lookup c.endpoint

end Script

/-! ## Logs -/

/-- The calls that were made and the endpoints that answered, latest first. -/
structure CallLog where
  started : List Call := []
  completed : List Endpoint := []
  deriving Repr

namespace CallLog

/-- A call was made. -/
def start (l : CallLog) (c : Call) : CallLog := { l with started := c :: l.started }

/-- A call was completed. -/
def complete (l : CallLog) (c : Call) : CallLog :=
  { l with completed := c.endpoint :: l.completed }

/-- The number of calls made to an endpoint. -/
def startedCount (l : CallLog) (e : Endpoint) : Nat := l.started.countP fun c => c.endpoint = e

/-- The number of calls that an endpoint completed. -/
def completedCount (l : CallLog) (e : Endpoint) : Nat := l.completed.count e

/-- The calls in the order in which they were made. -/
def calls (l : CallLog) : List Call := l.started.reverse

end CallLog

end HouseBoard
