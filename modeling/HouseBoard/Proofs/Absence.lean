/-
HouseBoard.Proofs.Absence — what is missing is never shown as if it were there.

A report may lack the time at which a device was heard, its alert, and any of its measured
values; a snapshot may lack whole sections.  Section 1 follows a value into its reading, Section
2 a report into its card, and Section 3 a snapshot into its view: cards stand for reports one by
one and in order, and each of them shows what its report has and says of the rest that it is not
there.
-/
import Mathlib.Data.List.Forall2
import HouseBoard.View.Model

namespace HouseBoard

/-! ## Section 1 — readings -/

namespace Reading

/-- A reading shows a value under its label; if there is none it has a text that begins
with `N/A`, in grey. -/
inductive Shows : Reading → String × Option Binary64 → Prop where
  | value (label : String) (v : Binary64) (text : String) (color : Color) (icon : ReadingIcon) :
      Shows (.available label v text color icon) (label, some v)
  | absence (label rest : String) (icon : ReadingIcon) :
      Shows (.unavailable label ("N/A" ++ rest) Color.neutral icon) (label, none)

theorem absent_shows (label unit : String) (icon : ReadingIcon) :
    (absent label unit icon).Shows (label, none) := by
  rw [absent, notAvailable, String.append_assoc]
  exact .absence label _ icon

theorem temperature_shows (label : String) (value : Option Binary64) (domain : Domain)
    (seasonAdjusted : Bool) :
    (temperature label value domain seasonAdjusted).Shows (label, value) := by
  cases value with
  | none => exact absent_shows label _ _
  | some v => exact .value label v _ _ _

theorem humidity_shows (label : String) (value : Option Binary64) :
    (humidity label value).Shows (label, value) := by
  cases value with
  | none => exact absent_shows label _ _
  | some v => exact .value label v _ _ _

theorem battery_shows (label : String) (level : Option Binary64) :
    (battery label level).Shows (label, level) := by
  cases level with
  | none => exact absent_shows label _ _
  | some v => exact .value label v _ _ _

/-- A radio link without a signal strength has no value, even if packets were counted. -/
theorem signal_shows (label : String) (rssi : Option Int) (rxPackets : Option Nat) :
    (signal label rssi rxPackets).Shows (label, rssi.map Binary64.ofInt) := by
  cases rssi with
  | none =>
    simp only [signal, notAvailable, String.append_assoc]
    exact .absence label _ _
  | some r => exact .value label _ _ _ _

theorem ofMeasurement_shows (m : Measurement) (seasonAdjusted : Bool) :
    (ofMeasurement m seasonAdjusted).Shows (m.label, m.value) := by
  unfold ofMeasurement
  cases m.kind with
  | temperature domain => exact temperature_shows m.label m.value domain seasonAdjusted
  | humidity => exact humidity_shows m.label m.value
  | battery => exact battery_shows m.label m.value

end Reading

/-! ## Section 2 — cards -/

/-- A report that has a card: that of a device on the bus, or that of a radio sensor. -/
inductive Report where
  | bus (d : DeviceState)
  | radio (d : BleDevice)

namespace Report

/-- The name of the device. -/
def name : Report → String
  | .bus d => d.name
  | .radio d => d.name

/-- The class of the device. -/
def cls : Report → DeviceClass
  | .bus _ => .caniot
  | .radio _ => .ble

/-- When the device was last heard. -/
def lastSeenAt : Report → Option Timestamp
  | .bus d => d.lastSeenAt
  | .radio d => d.lastSeenAt

/-- The age of the report. -/
def lastSeenFromNow : Report → Option Nat
  | .bus d => d.lastSeenFromNow
  | .radio d => d.lastSeenFromNow

/-- The alert of the device. -/
def alert : Report → Option Alert
  | .bus d => d.alert
  | .radio d => d.alert

/-- What was measured, as far as the values are known; radio sensors measure the
same four things. -/
def measured : Report → List (String × Option Binary64)
  | .bus d => d.readings.map fun m => (m.label, m.value)
  | .radio d =>
    [("temperature", d.temperature), ("humidity", d.humidity), ("battery", d.batteryLevel),
      ("signal", d.rssi.map Binary64.ofInt)]

/-- The card of a report. -/
def card (r : Report) (ctx : ViewContext) : DeviceCard :=
  match r with
  | .bus d => .ofDevice d ctx
  | .radio d => .ofBle d ctx

end Report

/-- What an alert says, and its class. -/
def Alert.content (a : Alert) : AlertClass × String × Option String :=
  (a.kind.classify, a.message, a.description)

/-- What a badge says, and its class. -/
def AlertBadge.content (b : AlertBadge) : AlertClass × String × Option String :=
  (⟨b.tier, b.icon⟩, b.message, b.description)

theorem Alert.content_badge (a : Alert) (closable : Bool) (navigateTo : Option String) :
    (a.badge closable navigateTo).content = a.content := rfl

/-- A card shows a report, and nothing that is not in it. -/
structure DeviceCard.Shows (c : DeviceCard) (r : Report) : Prop where
  name : c.name = r.name
  cls : c.cls = r.cls
  /-- A device that was never heard is offline, whatever else is known. -/
  unheard : r.lastSeenAt = none → c.liveness = ⟨false, "never", "never"⟩
  heard : r.lastSeenAt ≠ none → c.liveness.label ≠ "never" ∧ c.liveness.badge ≠ "never"
  alert : c.alert.map AlertBadge.content = r.alert.map Alert.content
  readings : List.Forall₂ Reading.Shows c.readings r.measured

/-- The words for a duration end with those for its seconds. -/
theorem humanize_getLast? (seconds : Nat) : (humanize seconds).toList.getLast? = some 's' := by
  simp only [humanize, String.toList_ofList]
  exact List.getLast?_concat

/-- The view of a sample says that a device was never heard exactly if this is so. -/
theorem LivenessSample.view_never (s : LivenessSample) (offset : Nat) :
    (s.lastSeenAt = none → s.view offset = ⟨false, "never", "never"⟩) ∧
      (s.lastSeenAt ≠ none → (s.view offset).label ≠ "never" ∧
        (s.view offset).badge ≠ "never") := by
  cases hseen : s.lastSeenAt with
  | none =>
    refine ⟨fun _ => ?_, fun h => absurd rfl h⟩
    simp only [view, evaluate, badge, hseen, neverLabel]
  | some t =>
    refine ⟨nofun, fun _ => ⟨fun h => ?_, fun h => ?_⟩⟩
    · simp only [view, evaluate, hseen, LabelStyle.label] at h
      have hlast := humanize_getLast? (addSeconds s.age offset)
      rw [h] at hlast
      exact absurd hlast (by decide)
    · simp only [view, evaluate, badge, hseen, LabelStyle.label] at h
      have hlast := congrArg (fun text => text.toList.getLast?) h
      simp only [String.toList_append, List.getLast?_append] at hlast
      exact absurd hlast (by simp)

/-- The card of a report shows it, whatever the rendering depends on. -/
theorem Report.card_shows (r : Report) (ctx : ViewContext) : (r.card ctx).Shows r := by
  cases r with
  | bus d =>
    obtain ⟨hunheard, hheard⟩ :=
      LivenessSample.view_never (.ofReport d.lastSeenAt d.lastSeenFromNow .caniot ctx.policy)
        ctx.offset
    refine ⟨rfl, rfl, hunheard, hheard, ?_, ?_⟩
    · simp only [card, DeviceCard.ofDevice, alert, Option.map_map, Function.comp_def,
        Alert.content_badge]
    · simp only [card, DeviceCard.ofDevice, measured, List.forall₂_map_left_iff,
        List.forall₂_map_right_iff]
      exact List.forall₂_same.mpr fun m _ => Reading.ofMeasurement_shows m ctx.seasonAdjusted
  | radio d =>
    obtain ⟨hunheard, hheard⟩ :=
      LivenessSample.view_never (.ofReport d.lastSeenAt d.lastSeenFromNow .ble ctx.policy)
        ctx.offset
    refine ⟨rfl, rfl, hunheard, hheard, ?_, ?_⟩
    · simp only [card, DeviceCard.ofBle, alert, Option.map_map, Function.comp_def,
        Alert.content_badge]
    · exact .cons (Reading.temperature_shows ..) <| .cons (Reading.humidity_shows ..) <|
        .cons (Reading.battery_shows ..) <| .cons (Reading.signal_shows ..) .nil

/-! ## Section 3 — views -/

/-- The report of a controller's own device. -/
def LiveState.device : LiveState → DeviceState
  | .garage g => g.device
  | .heaters h => h.device
  | .alarm a => a.device

/-- The reports in a snapshot that have cards, in order. -/
def Snapshot.reports : Snapshot → List Report
  | .home s =>
    (s.heaters.map fun h => .bus h.device).toList ++ (s.alarm.map fun a => .bus a.device).toList
  | .ble l => l.devices.map .radio
  | .garage g => [.bus g.device]
  | .heaters h => [.bus h.device]
  | .alarm a => [.bus a.device]
  | .device s => .bus s.state :: (s.live.map fun l => .bus l.device).toList

/-- The card of a controller's section. -/
def ControllerModel.card : ControllerModel → DeviceCard
  | .garage m => m.device
  | .heaters m => m.device
  | .alarm m => m.device

/-- The device cards of a view, in order. -/
def ViewModel.cards : ViewModel → List DeviceCard
  | .home m => m.heaters.toList ++ m.outdoorAlarm.toList
  | .ble m => m.devices
  | .garage m => [m.device]
  | .heaters m => [m.device]
  | .alarm m => [m.device]
  | .device m => m.device :: (m.controller.map ControllerModel.card).toList

/-- The model of the alarm has a time for the last siren exactly if one is known. -/
def AlarmModel.TellsSiren (m : AlarmModel) (a : AlarmState) : Prop :=
  m.lastSiren = "N/A" ↔ a.lastSirenAt = none

/-- The section of a controller is that of a report of the controller. -/
inductive ControllerModel.TellsOf : ControllerModel → LiveState → Prop where
  | garage (m : GarageModel) (g : GarageState) : TellsOf (.garage m) (.garage g)
  | heaters (m : HeatersModel) (h : HeaterState) : TellsOf (.heaters m) (.heaters h)
  | alarm {m : AlarmModel} {a : AlarmState} (hsiren : m.TellsSiren a) :
      TellsOf (.alarm m) (.alarm a)

/-- A view is that of a snapshot, and has the sections for which the snapshot has reports. -/
inductive ViewModel.TellsOf : ViewModel → Snapshot → Prop where
  | home {m : HomeModel} {s : HomeSnapshot} (hheaters : m.heaters.isSome = s.heaters.isSome)
      (halarm : m.outdoorAlarm.isSome = s.alarm.isSome) : TellsOf (.home m) (.home s)
  | ble (m : BleModel) (l : BleDeviceList) : TellsOf (.ble m) (.ble l)
  | garage (m : GarageModel) (g : GarageState) : TellsOf (.garage m) (.garage g)
  | heaters (m : HeatersModel) (h : HeaterState) : TellsOf (.heaters m) (.heaters h)
  | alarm {m : AlarmModel} {a : AlarmState} (hsiren : m.TellsSiren a) :
      TellsOf (.alarm m) (.alarm a)
  | device {m : DeviceModel} {s : DeviceSnapshot}
      (hlive : Option.Rel ControllerModel.TellsOf m.controller s.live) :
      TellsOf (.device m) (.device s)

/-- The cards of a view are those of the reports in its snapshot. -/
theorem Snapshot.cards_render (s : Snapshot) (ctx : ViewContext) :
    (s.render ctx).cards = s.reports.map fun r => r.card ctx := by
  cases s with
  | home s =>
    cases hheaters : s.heaters <;> cases halarm : s.alarm <;>
      simp [render, HomeSnapshot.render, ViewModel.cards, reports, Report.card,
        hheaters, halarm]
  | ble l => simp [render, BleDeviceList.render, ViewModel.cards, reports, Report.card]
  | garage g => rfl
  | heaters h => rfl
  | alarm a => rfl
  | device s =>
    have hlive (l : LiveState) : (l.render ctx).card = .ofDevice l.device ctx := by
      cases l <;> rfl
    cases hcontroller : s.live <;>
      simp [render, DeviceSnapshot.render, ViewModel.cards, reports, Report.card,
        hcontroller, hlive]

/-- A time is never displayed as one that is missing. -/
theorem Timestamp.display_ne (t : Timestamp) : t.display ≠ "N/A" := by
  intro h
  have hmem : ' ' ∈ t.display.toList := by simp [display]
  rw [h] at hmem
  exact absurd hmem (by decide)

theorem AlarmState.render_tellsSiren (a : AlarmState) (ctx : ViewContext) :
    (a.render ctx).TellsSiren a := by
  unfold AlarmModel.TellsSiren
  cases hsiren : a.lastSirenAt with
  | none => simp [render, notAvailable, hsiren]
  | some t => simp [render, hsiren, t.display_ne]

theorem LiveState.render_tellsOf (l : LiveState) (ctx : ViewContext) :
    (l.render ctx).TellsOf l := by
  cases l with
  | garage g => exact .garage _ g
  | heaters h => exact .heaters _ h
  | alarm a => exact .alarm (a.render_tellsSiren ctx)

theorem Snapshot.render_tellsOf (s : Snapshot) (ctx : ViewContext) :
    (s.render ctx).TellsOf s := by
  cases s with
  | home s => exact .home Option.isSome_map Option.isSome_map
  | ble l => exact .ble _ l
  | garage g => exact .garage _ g
  | heaters h => exact .heaters _ h
  | alarm a => exact .alarm (a.render_tellsSiren ctx)
  | device s =>
    refine .device ?_
    simp only [DeviceSnapshot.render]
    cases s.live with
    | none => exact .none
    | some l => exact .some (l.render_tellsOf ctx)

/-- Whatever a rendering depends on, the cards of the view stand for the reports in the snapshot
one by one and in order, and each shows what its report has and nothing else: a device that was
never heard is offline and has never been seen, an alert has its badge, and each measured value
its reading, which is available exactly if the value is there.  A section is there exactly if
its report is, and so is the time of the last siren. -/
theorem Snapshot.render_shows (s : Snapshot) (ctx : ViewContext) :
    List.Forall₂ DeviceCard.Shows (s.render ctx).cards s.reports ∧
    (s.render ctx).TellsOf s := by
  refine ⟨?_, s.render_tellsOf ctx⟩
  rw [s.cards_render, List.forall₂_map_left_iff]
  exact List.forall₂_same.mpr fun r _ => r.card_shows ctx

/-- A radio sensor of which nothing is known is shown as such. -/
example (ctx : ViewContext) :
    (Report.card (.radio { mac := "aa", name := "cellar" }) ctx).readings.map Reading.text =
    ["N/A °C", "N/A %", "N/A %", "N/A dBm / N/Ap"] := by
  rfl

end HouseBoard
