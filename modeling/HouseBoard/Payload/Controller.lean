/-
HouseBoard.Payload.Controller — the reports of the three controllers: the outdoor alarm, the
garage and the heaters.

Each one contains the report of its own device.
-/
import HouseBoard.Payload.Device

namespace HouseBoard

/-! ## The outdoor alarm -/

/-- The report of the alarm. -/
structure AlarmState where
  device : DeviceState
  enabled : Bool
  sirenActive : Bool := false
  southDetector : Bool := false
  eastDetector : Bool := false
  southLight : Bool := false
  eastLight : Bool := false
  sabotage : Bool := false
  lastSirenAt : Option Timestamp := none
  sirensTriggeredCount : Nat := 0
  deriving DecidableEq, Repr, Inhabited

namespace AlarmState

/-- The description of alarm reports. -/
def record : Record AlarmState where
  kinds := [DeviceState, Bool, Bool, Bool, Bool, Bool, Bool, Bool, Option Timestamp, Nat]
  fields :=
    .cons (.required "device" DeviceState.codec) <|
    .cons (.required "enabled" .flag) <|
    .cons (.defaulted "siren_active" .flag false) <|
    .cons (.defaulted "south_detector" .flag false) <|
    .cons (.defaulted "east_detector" .flag false) <|
    .cons (.defaulted "south_light" .flag false) <|
    .cons (.defaulted "east_light" .flag false) <|
    .cons (.defaulted "sabotage" .flag false) <|
    .cons (.nullable "last_siren_at" Timestamp.codec) <|
    .cons (.defaulted "sirens_triggered_count" (.upTo (UInt32.size - 1)) 0) .nil
  make
    | (device, enabled, sirenActive, southDetector, eastDetector, southLight, eastLight,
        sabotage, lastSirenAt, sirensTriggeredCount, ()) =>
      { device, enabled, sirenActive, southDetector, eastDetector, southLight, eastLight,
        sabotage, lastSirenAt, sirensTriggeredCount }
  split a :=
    (a.device, a.enabled, a.sirenActive, a.southDetector, a.eastDetector, a.southLight,
      a.eastLight, a.sabotage, a.lastSirenAt, a.sirensTriggeredCount, ())

/-- Alarm reports as documents. -/
def codec : Codec AlarmState := record.codec

end AlarmState

/-! ## The garage -/

/-- The position of a door. -/
inductive DoorState where
  | opened
  | closed
  | unknown
  deriving DecidableEq, Repr, Inhabited

namespace DoorState

/-- The word of a position. -/
def word : DoorState → String
  | .opened => "open"
  | .closed => "closed"
  | .unknown => "unknown"

/-- Positions as words. -/
def codec : Codec DoorState :=
  .word [("open", .opened), ("closed", .closed), ("unknown", .unknown)] word

end DoorState

/-- A door, and how far it has moved in percent while it moves. -/
structure DoorStatus where
  state : DoorState
  progress : Option Nat := none
  deriving DecidableEq, Repr, Inhabited

namespace DoorStatus

/-- The description of doors. -/
def record : Record DoorStatus where
  kinds := [DoorState, Option Nat]
  fields :=
    .cons (.required "state" DoorState.codec) <|
    .cons (.nullable "progress" (.upTo (UInt32.size - 1))) .nil
  make | (state, progress, ()) => { state, progress }
  split d := (d.state, d.progress, ())

/-- Doors as documents. -/
def codec : Codec DoorStatus := record.codec

end DoorStatus

/-- The report of the garage. -/
structure GarageState where
  device : DeviceState
  left : DoorStatus := ⟨.unknown, none⟩
  right : DoorStatus := ⟨.unknown, none⟩
  gate : DoorState := .unknown
  deriving DecidableEq, Repr, Inhabited

namespace GarageState

/-- The description of garage reports. -/
def record : Record GarageState where
  kinds := [DeviceState, DoorStatus, DoorStatus, DoorState]
  fields :=
    .cons (.required "device" DeviceState.codec) <|
    .cons (.defaulted "left" DoorStatus.codec ⟨.unknown, none⟩) <|
    .cons (.defaulted "right" DoorStatus.codec ⟨.unknown, none⟩) <|
    .cons (.defaulted "gate" DoorState.codec .unknown) .nil
  make | (device, left, right, gate, ()) => { device, left, right, gate }
  split g := (g.device, g.left, g.right, g.gate, ())

/-- Garage reports as documents. -/
def codec : Codec GarageState := record.codec

end GarageState

/-! ## The heaters -/

/-- The mode of a heater. -/
inductive HeaterMode where
  | none
  | comfort
  | comfortMin1
  | comfortMin2
  | energySaving
  | frostFree
  | off
  deriving DecidableEq, Repr, Inhabited

namespace HeaterMode

/-- The word of a mode. -/
def word : HeaterMode → String
  | .none => "none"
  | .comfort => "comfort"
  | .comfortMin1 => "comfort_min1"
  | .comfortMin2 => "comfort_min2"
  | .energySaving => "energy_saving"
  | .frostFree => "frost_free"
  | .off => "off"

/-- The modes by their words. -/
def words : List (String × HeaterMode) :=
  [("none", .none), ("comfort", .comfort), ("comfort_min1", .comfortMin1),
    ("comfort_min2", .comfortMin2), ("energy_saving", .energySaving),
    ("frost_free", .frostFree), ("off", .off)]

/-- Modes as words. -/
def codec : Codec HeaterMode := .word words word

end HeaterMode

/-- The report of the heaters. -/
structure HeaterState where
  device : DeviceState
  heaters : List HeaterMode
  powerStatus : Bool := false
  deriving DecidableEq, Repr, Inhabited

namespace HeaterState

/-- The description of heater reports. -/
def record : Record HeaterState where
  kinds := [DeviceState, List HeaterMode, Bool]
  fields :=
    .cons (.required "device" DeviceState.codec) <|
    .cons (.required "heaters" (.listOf HeaterMode.codec)) <|
    .cons (.defaulted "power_status" .flag false) .nil
  make | (device, heaters, powerStatus, ()) => { device, heaters, powerStatus }
  split h := (h.device, h.heaters, h.powerStatus, ())

/-- Heater reports as documents. -/
def codec : Codec HeaterState := record.codec

end HeaterState

end HouseBoard
