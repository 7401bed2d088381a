/-
HouseBoard.View.Model — views ready to be shown.

Each kind of snapshot has its model.  Models are put together from cards, alert panels and
fields of the reports, and decide nothing themselves.
-/
import HouseBoard.View.Card
import HouseBoard.View.Snapshot

namespace HouseBoard

/-! ## Models -/

/-- The home view. -/
structure HomeModel where
  heaters : Option DeviceCard
  outdoorAlarm : Option DeviceCard
  activeAlerts : AlertPanel
  deriving DecidableEq, Repr

/-- The view of the radio sensors. -/
structure BleModel where
  devices : List DeviceCard
  activeAlerts : AlertPanel
  deriving DecidableEq, Repr

/-- The view of the garage. -/
structure GarageModel where
  device : DeviceCard
  left : DoorStatus
  right : DoorStatus
  gate : DoorState
  deriving DecidableEq, Repr

/-- The view of the heaters. -/
structure HeatersModel where
  device : DeviceCard
  heaters : List HeaterMode
  powerStatus : Bool
  deriving DecidableEq, Repr

/-- The view of the alarm. -/
structure AlarmModel where
  device : DeviceCard
  enabled : Bool
  sirenActive : Bool
  southDetector : Bool
  eastDetector : Bool
  southLight : Bool
  eastLight : Bool
  sabotage : Bool
  lastSiren : String
  sirensTriggeredCount : Nat
  deriving DecidableEq, Repr

/-- The section of a device's controller. -/
inductive ControllerModel where
  | garage (model : GarageModel)
  | heaters (model : HeatersModel)
  | alarm (model : AlarmModel)
  deriving DecidableEq, Repr

/-- The view of a device. -/
structure DeviceModel where
  device : DeviceCard
  controller : Option ControllerModel
  deriving DecidableEq, Repr

/-- A view ready to be shown. -/
inductive ViewModel where
  | home (model : HomeModel)
  | ble (model : BleModel)
  | garage (model : GarageModel)
  | heaters (model : HeatersModel)
  | alarm (model : AlarmModel)
  | device (model : DeviceModel)
  deriving DecidableEq, Repr

/-! ## Rendering -/

/-- The alerts that the home panel may show: the coprocessor's, then those of the devices
that report one. -/
def HomeSnapshot.alertEntries (s : HomeSnapshot) : List AlertEntry :=
  let copro := (s.ble.bind (·.coproAlert)).map fun a => AlertEntry.mk a (some "ble")
  let devices := (s.devicesWithAlert.getD []).filterMap fun d => d.alert.map fun a =>
    AlertEntry.mk a d.controllerRoute
  copro.toList ++ devices

/-- The model of the home view. -/
def HomeSnapshot.render (s : HomeSnapshot) (ctx : ViewContext) : HomeModel where
  heaters := s.heaters.map fun h => .ofDevice h.device ctx
  outdoorAlarm := s.alarm.map fun a => .ofDevice a.device ctx
  activeAlerts := .collect s.alertEntries ctx.debug

/-- The alerts that the panel of the radio sensors may show: the coprocessor's, then
the sensors'. -/
def BleDeviceList.alertEntries (l : BleDeviceList) : List AlertEntry :=
  (l.coproAlert.map fun a => AlertEntry.mk a none).toList
    ++ l.devices.filterMap fun d => d.alert.map fun a => AlertEntry.mk a none

/-- The model of the radio sensors. -/
def BleDeviceList.render (l : BleDeviceList) (ctx : ViewContext) : BleModel where
  devices := l.devices.map fun d => .ofBle d ctx
  activeAlerts := .collect l.alertEntries ctx.debug

/-- The model of the garage. -/
def GarageState.render (g : GarageState) (ctx : ViewContext) : GarageModel :=
  ⟨.ofDevice g.device ctx, g.left, g.right, g.gate⟩

/-- The model of the heaters. -/
def HeaterState.render (h : HeaterState) (ctx : ViewContext) : HeatersModel :=
  ⟨.ofDevice h.device ctx, h.heaters, h.powerStatus⟩

/-- The model of the alarm. -/
def AlarmState.render (a : AlarmState) (ctx : ViewContext) : AlarmModel where
  device := .ofDevice a.device ctx
  enabled := a.enabled
  sirenActive := a.sirenActive
  southDetector := a.southDetector
  eastDetector := a.eastDetector
  southLight := a.southLight
  eastLight := a.eastLight
  sabotage := a.sabotage
  lastSiren := match a.lastSirenAt with
    | some t => t.display
    | none => notAvailable
  sirensTriggeredCount := a.sirensTriggeredCount

/-- The section of a controller. -/
def LiveState.render (l : LiveState) (ctx : ViewContext) : ControllerModel :=
  match l with
  | .garage g => .garage (g.render ctx)
  | .heaters h => .heaters (h.render ctx)
  | .alarm a => .alarm (a.render ctx)

/-- The model of a device. -/
def DeviceSnapshot.render (s : DeviceSnapshot) (ctx : ViewContext) : DeviceModel :=
  ⟨.ofDevice s.state ctx, s.live.map fun l => l.render ctx⟩

/-- The model of a snapshot. -/
def Snapshot.render (s : Snapshot) (ctx : ViewContext) : ViewModel :=
  match s with
  | .home s => .home (s.render ctx)
  | .ble l => .ble (l.render ctx)
  | .garage g => .garage (g.render ctx)
  | .heaters h => .heaters (h.render ctx)
  | .alarm a => .alarm (a.render ctx)
  | .device s => .device (s.render ctx)

/-! ## Documents -/

/-- The members of the home view. -/
def HomeModel.members (m : HomeModel) : List (String × Json) :=
  [("heaters", Json.ofOption DeviceCard.toJson m.heaters),
    ("outdoor_alarm", Json.ofOption DeviceCard.toJson m.outdoorAlarm),
    ("active_alerts", m.activeAlerts.toJson)]

/-- The members of the view of the radio sensors. -/
def BleModel.members (m : BleModel) : List (String × Json) :=
  [("devices", Json.ofList DeviceCard.toJson m.devices),
    ("active_alerts", m.activeAlerts.toJson)]

/-- The members of the view of the garage. -/
def GarageModel.members (m : GarageModel) : List (String × Json) :=
  [("device", m.device.toJson), ("left", DoorStatus.codec.write m.left),
    ("right", DoorStatus.codec.write m.right), ("gate", DoorState.codec.write m.gate)]

/-- The members of the view of the heaters. -/
def HeatersModel.members (m : HeatersModel) : List (String × Json) :=
  [("device", m.device.toJson), ("heaters", Json.ofList HeaterMode.codec.write m.heaters),
    ("power_status", .bool m.powerStatus)]

/-- The members of the view of the alarm. -/
def AlarmModel.members (m : AlarmModel) : List (String × Json) :=
  [("device", m.device.toJson), ("enabled", .bool m.enabled),
    ("siren_active", .bool m.sirenActive), ("south_detector", .bool m.southDetector),
    ("east_detector", .bool m.eastDetector), ("south_light", .bool m.southLight),
    ("east_light", .bool m.eastLight), ("sabotage", .bool m.sabotage),
    ("last_siren", .str m.lastSiren),
    ("sirens_triggered_count", Json.nat m.sirensTriggeredCount)]

/-- The section of a controller, which names itself. -/
def ControllerModel.toJson : ControllerModel → Json
  | .garage m => .obj (("controller", .str "garage") :: m.members)
  | .heaters m => .obj (("controller", .str "heaters") :: m.members)
  | .alarm m => .obj (("controller", .str "alarm") :: m.members)

/-- The members of the view of a device. -/
def DeviceModel.members (m : DeviceModel) : List (String × Json) :=
  ("device", m.device.toJson) :: Json.optional "controller"
    (m.controller.map ControllerModel.toJson)

/-- The name of the view. -/
def ViewModel.tag : ViewModel → String
  | .home _ => "home"
  | .ble _ => "ble"
  | .garage _ => "garage"
  | .heaters _ => "heaters"
  | .alarm _ => "alarm"
  | .device _ => "device"

/-- The members of a view beside its name. -/
def ViewModel.members : ViewModel → List (String × Json)
  | .home m => m.members
  | .ble m => m.members
  | .garage m => m.members
  | .heaters m => m.members
  | .alarm m => m.members
  | .device m => m.members

/-- A view as a document. -/
def ViewModel.toJson (m : ViewModel) : Json := .obj (("view", .str m.tag) :: m.members)

end HouseBoard
