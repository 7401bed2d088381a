/-
HouseBoard.Proofs.Knobs — which fields of a view depend on what.

A rendering depends on the debug mode, the seconds since the snapshot, the season and two
thresholds.  Each statement here compares two renderings of one snapshot that differ in one of
them, after the fields it may touch have been made alike: then nothing is left in which the
views differ.  Section 1 makes fields alike anywhere in a view, and reduces the comparison of
views to that of the cards of single reports.  Section 2 compares those.  Section 3 puts both
together.
-/
import HouseBoard.Proofs.Absence

namespace HouseBoard

/-! ## Section 1 — views with changed parts -/

/-- A controller's section with its card changed. -/
def ControllerModel.mapCard (f : DeviceCard → DeviceCard) : ControllerModel → ControllerModel
  | .garage m => .garage { m with device := f m.device }
  | .heaters m => .heaters { m with device := f m.device }
  | .alarm m => .alarm { m with device := f m.device }

namespace ViewModel

/-- A view with all of its device cards changed. -/
def mapCards (f : DeviceCard → DeviceCard) : ViewModel → ViewModel
  | .home m => .home { m with heaters := m.heaters.map f, outdoorAlarm := m.outdoorAlarm.map f }
  | .ble m => .ble { m with devices := m.devices.map f }
  | .garage m => .garage { m with device := f m.device }
  | .heaters m => .heaters { m with device := f m.device }
  | .alarm m => .alarm { m with device := f m.device }
  | .device m => .device { device := f m.device, controller := m.controller.map (·.mapCard f) }

/-- A view without its active alerts. -/
def withoutPanel : ViewModel → ViewModel
  | .home m => .home { m with activeAlerts := ⟨[]⟩ }
  | .ble m => .ble { m with activeAlerts := ⟨[]⟩ }
  | m => m

end ViewModel

namespace Snapshot

/-- Two views of a snapshot with the same active alerts are alike after changes that make the
cards of each report alike. -/
theorem mapCards_render_congr {s : Snapshot} {ctx ctx' : ViewContext}
    {f : DeviceCard → DeviceCard} (hdebug : ctx'.debug = ctx.debug)
    (hcard : ∀ r : Report, f (r.card ctx') = f (r.card ctx)) :
    (s.render ctx').mapCards f = (s.render ctx).mapCards f := by
  have hbus (d : DeviceState) : f (.ofDevice d ctx') = f (.ofDevice d ctx) := hcard (.bus d)
  have hradio (d : BleDevice) : f (.ofBle d ctx') = f (.ofBle d ctx) := hcard (.radio d)
  have hlive (l : LiveState) : (l.render ctx').mapCard f = (l.render ctx).mapCard f := by
    cases l with
    | garage g =>
      simp only [LiveState.render, GarageState.render, ControllerModel.mapCard, hbus]
    | heaters h =>
      simp only [LiveState.render, HeaterState.render, ControllerModel.mapCard, hbus]
    | alarm a => simp only [LiveState.render, AlarmState.render, ControllerModel.mapCard, hbus]
  cases s with
  | home s =>
    simp only [render, HomeSnapshot.render, ViewModel.mapCards, Option.map_map,
      Function.comp_def, hbus, hdebug]
  | ble l =>
    simp only [render, BleDeviceList.render, ViewModel.mapCards, List.map_map,
      Function.comp_def, hradio, hdebug]
  | garage g => simp only [render, GarageState.render, ViewModel.mapCards, hbus]
  | heaters h => simp only [render, HeaterState.render, ViewModel.mapCards, hbus]
  | alarm a => simp only [render, AlarmState.render, ViewModel.mapCards, hbus]
  | device d =>
    simp only [render, DeviceSnapshot.render, ViewModel.mapCards, Option.map_map,
      Function.comp_def, hbus, hlive]

/-- What two views of a snapshot show of each report is what its two cards show. -/
theorem forall₂_zip_cards {R : Report → DeviceCard × DeviceCard → Prop} {s : Snapshot}
    {ctx ctx' : ViewContext} (hcard : ∀ r, R r (r.card ctx, r.card ctx')) :
    List.Forall₂ R s.reports ((s.render ctx).cards.zip (s.render ctx').cards) := by
  rw [cards_render, cards_render, List.zip_map', List.forall₂_map_right_iff]
  exact List.forall₂_same.mpr fun r _ => hcard r

end Snapshot

/-! ## Section 2 — cards -/

/-- A reading without the colour and the icon of an available temperature; no other reading has
a thermometer that is not empty. -/
def Reading.dull : Reading → Reading
  | .available label value text _ (.thermometer _) =>
    .available label value text Color.neutral (.thermometer .half)
  | r => r

namespace DeviceCard

/-- A card that says nothing of the device's liveness. -/
def mute (c : DeviceCard) : DeviceCard := { c with liveness := ⟨false, "", ""⟩ }

/-- A card whose temperatures have neither colour nor icon. -/
def dull (c : DeviceCard) : DeviceCard := { c with readings := c.readings.map Reading.dull }

/-- A card that does not say whether a device of the class is online. -/
def hideOnline (cls : DeviceClass) (c : DeviceCard) : DeviceCard :=
  if c.cls = cls then { c with liveness := { c.liveness with online := false } } else c

end DeviceCard

/-- The season shows in nothing but the colour and the icon of available temperatures. -/
theorem Reading.dull_ofMeasurement (m : Measurement) (season season' : Bool) :
    (ofMeasurement m season').dull = (ofMeasurement m season).dull := by
  obtain ⟨label, kind, value⟩ := m
  cases kind with
  | temperature domain =>
    cases value with
    | none => rfl
    | some v => rfl
  | humidity => rfl
  | battery => rfl

/-- The threshold shows in nothing but whether the device is online. -/
theorem LivenessSample.view_threshold (s : LivenessSample) (offset n : Nat) :
    { ({ s with threshold := n } : LivenessSample).view offset with online := false } =
      { s.view offset with online := false } := by
  obtain ⟨seen, age, threshold⟩ := s
  cases seen with
  | none => rfl
  | some t => rfl

namespace Report

/-- Nothing but the liveness depends on the seconds since the snapshot. -/
theorem mute_card_offset (r : Report) (ctx : ViewContext) (offset : Nat) :
    (r.card { ctx with offset := offset }).mute = (r.card ctx).mute := by
  cases r with
  | bus d => rfl
  | radio d => rfl

/-- The card of a device that was never heard does not depend on them at all. -/
theorem card_offset_of_unheard {r : Report} (h : r.lastSeenAt = none) (ctx : ViewContext)
    (offset : Nat) : r.card { ctx with offset := offset } = r.card ctx := by
  have hview (age : Option Nat) (cls : DeviceClass) (m n : Nat) :
      (LivenessSample.ofReport none age cls ctx.policy).view m =
        (LivenessSample.ofReport none age cls ctx.policy).view n := rfl
  cases r with
  | bus d =>
    change d.lastSeenAt = none at h
    simp only [card, DeviceCard.ofDevice, h, hview _ _ offset ctx.offset]
  | radio d =>
    change d.lastSeenAt = none at h
    simp only [card, DeviceCard.ofBle, h, hview _ _ offset ctx.offset]

/-- Nothing but the look of temperatures depends on the season. -/
theorem dull_card_season (r : Report) (ctx : ViewContext) (season : Bool) :
    (r.card { ctx with seasonAdjusted := season }).dull = (r.card ctx).dull := by
  cases r with
  | bus d =>
    simp only [card, DeviceCard.ofDevice, DeviceCard.dull, List.map_map, Function.comp_def,
      Reading.dull_ofMeasurement _ ctx.seasonAdjusted season]
  | radio d =>
    have htemperature :=
      Reading.dull_ofMeasurement ⟨"temperature", .temperature .indoor, d.temperature⟩
      ctx.seasonAdjusted season
    simp only [Reading.ofMeasurement] at htemperature
    simp only [card, DeviceCard.ofBle, DeviceCard.dull, List.map_cons, htemperature]

/-- Two policies that differ for one class of devices show in nothing but whether those
devices are online. -/
theorem hideOnline_card {ctx : ViewContext} {policy : LivenessPolicy} {cls : DeviceClass}
    (hothers : ∀ other, other ≠ cls → policy.threshold other = ctx.policy.threshold other)
    (r : Report) :
    (r.card { ctx with policy := policy }).hideOnline cls = (r.card ctx).hideOnline cls := by
  cases r with
  | bus d =>
    by_cases hcls : DeviceClass.caniot = cls
    · subst hcls
      have hview := LivenessSample.view_threshold
        (.ofReport d.lastSeenAt d.lastSeenFromNow .caniot ctx.policy)
        ctx.offset (policy.threshold .caniot)
      exact congrArg (fun l => { DeviceCard.ofDevice d ctx with liveness := l }) hview
    · simp only [card, DeviceCard.ofDevice, LivenessSample.ofReport, hothers _ hcls]
  | radio d =>
    by_cases hcls : DeviceClass.ble = cls
    · subst hcls
      have hview := LivenessSample.view_threshold
        (.ofReport d.lastSeenAt d.lastSeenFromNow .ble ctx.policy)
        ctx.offset (policy.threshold .ble)
      exact congrArg (fun l => { DeviceCard.ofBle d ctx with liveness := l }) hview
    · simp only [card, DeviceCard.ofBle, LivenessSample.ofReport, hothers _ hcls]

end Report

/-! ## Section 3 — views -/

/-- Two views of one snapshot that differ in the debug mode alone are the same up to the active
alerts; two that differ in the seconds since the snapshot, up to the liveness of devices that
were heard; two that differ in the season, up to the colours and icons of available
temperatures; and two that differ in the threshold of a class, up to which devices of that class
are online. -/
theorem Snapshot.render_knobs (s : Snapshot) (ctx : ViewContext) :
    (∀ debug, (s.render { ctx with debug := debug }).withoutPanel =
      (s.render ctx).withoutPanel) ∧
      (∀ offset, (s.render { ctx with offset := offset }).mapCards .mute =
        (s.render ctx).mapCards .mute ∧
        List.Forall₂ (fun r (c : DeviceCard × DeviceCard) => r.lastSeenAt = none → c.1 = c.2)
          s.reports
          ((s.render ctx).cards.zip (s.render { ctx with offset := offset }).cards)) ∧
      (∀ season, (s.render { ctx with seasonAdjusted := season }).mapCards .dull =
        (s.render ctx).mapCards .dull) ∧
      (∀ n, (s.render { ctx with policy := { ctx.policy with caniotThreshold := n } }).mapCards
        (.hideOnline .caniot) =
        (s.render ctx).mapCards (.hideOnline .caniot)) ∧
      ∀ n, (s.render { ctx with policy := { ctx.policy with bleThreshold := n } }).mapCards
        (.hideOnline .ble) =
        (s.render ctx).mapCards (.hideOnline .ble) := by
  refine ⟨fun debug => ?_, fun offset => ⟨?_, ?_⟩, fun season => ?_, fun n => ?_, fun n => ?_⟩
  · cases s <;> rfl
  · exact mapCards_render_congr rfl fun r => r.mute_card_offset ctx offset
  · exact forall₂_zip_cards fun r hunheard =>
      (r.card_offset_of_unheard hunheard ctx offset).symm
  · exact mapCards_render_congr rfl fun r => r.dull_card_season ctx season
  · refine mapCards_render_congr rfl (Report.hideOnline_card fun other hother => ?_)
    cases other with
    | caniot => exact absurd rfl hother
    | ble => rfl
  · refine mapCards_render_congr rfl (Report.hideOnline_card fun other hother => ?_)
    cases other with
    | caniot => rfl
    | ble => exact absurd rfl hother

end HouseBoard
