/-
HouseBoard.Proofs.Panels — what the panels of active alerts list.

The home view and the view of the radio sensors put their panels together from different
reports, most of which may be missing.  Section 1 names the owners of alerts in the order in
which a panel goes through them, Section 2 says when badges are exactly those of the owners'
alerts, and Section 3 that this is what both panels show in debug mode, and that otherwise they
show those badges whose severity is a warning or an error.
-/
import HouseBoard.Proofs.Absence

namespace HouseBoard

/-! ## Section 1 — owners of alerts -/

/-- Something that may report an alert, and the view where one can act on it. -/
structure AlertOwner where
  alert : Option Alert
  navigateTo : Option String
  deriving DecidableEq, Repr

/-- What an owner gives a panel to show. -/
def AlertOwner.entry? (o : AlertOwner) : Option AlertEntry :=
  o.alert.map fun a => ⟨a, o.navigateTo⟩

/-- The owners in the home view: the coprocessor, and the devices that were reported
for their alerts. -/
def HomeSnapshot.alertOwners (s : HomeSnapshot) : List AlertOwner :=
  ⟨s.ble.bind (·.coproAlert), some "ble"⟩
    :: (s.devicesWithAlert.getD []).map fun d => ⟨d.alert, d.uiViewName.map ("devices/" ++ ·)⟩

/-- The owners in the view of the radio sensors: the coprocessor and the sensors. -/
def BleDeviceList.alertOwners (l : BleDeviceList) : List AlertOwner :=
  ⟨l.coproAlert, none⟩ :: l.devices.map fun d => ⟨d.alert, none⟩

/-- The owners in a view that has a panel. -/
def Snapshot.alertOwners? : Snapshot → Option (List AlertOwner)
  | .home s => some s.alertOwners
  | .ble l => some l.alertOwners
  | .garage _ | .heaters _ | .alarm _ | .device _ => none

/-- The panel of a view. -/
def ViewModel.panel? : ViewModel → Option AlertPanel
  | .home m => some m.activeAlerts
  | .ble m => some m.activeAlerts
  | .garage _ | .heaters _ | .alarm _ | .device _ => none

/-- The home panel goes through its owners. -/
theorem HomeSnapshot.alertEntries_eq (s : HomeSnapshot) :
    s.alertEntries = s.alertOwners.filterMap AlertOwner.entry? := by
  simp only [alertEntries, alertOwners, List.filterMap_cons, List.filterMap_map]
  cases s.ble.bind (·.coproAlert) with
  | none => rfl
  | some a => rfl

/-- So does the panel of the radio sensors. -/
theorem BleDeviceList.alertEntries_eq (l : BleDeviceList) :
    l.alertEntries = l.alertOwners.filterMap AlertOwner.entry? := by
  simp only [alertEntries, alertOwners, List.filterMap_cons, List.filterMap_map]
  cases l.coproAlert with
  | none => rfl
  | some a => rfl

/-- A view has a panel exactly if it has owners, and the panel collects what they give. -/
theorem Snapshot.panel?_render (s : Snapshot) (ctx : ViewContext) :
    (s.render ctx).panel? =
      s.alertOwners?.map fun owners =>
        .collect (owners.filterMap AlertOwner.entry?) ctx.debug := by
  cases s with
  | home s =>
    exact congrArg (fun entries => some (AlertPanel.collect entries ctx.debug))
      s.alertEntries_eq
  | ble l =>
    exact congrArg (fun entries => some (AlertPanel.collect entries ctx.debug))
      l.alertEntries_eq
  | garage g => rfl
  | heaters h => rfl
  | alarm a => rfl
  | device d => rfl

/-! ## Section 2 — badges of owners -/

/-- The badges are those of the owners that report an alert, one for each and in their order. -/
inductive AlertOwner.Listed : List AlertOwner → List AlertBadge → Prop
  | nil : Listed [] []
  /-- Without an alert there is no badge. -/
  | silent {o : AlertOwner} {owners : List AlertOwner} {badges : List AlertBadge}
      (hsilent : o.alert = none) (rest : Listed owners badges) : Listed (o :: owners) badges
  /-- An alert has a badge with its class and its words, which cannot be closed and leads to
  the owner's view. -/
  | alert {o : AlertOwner} {owners : List AlertOwner} {badge : AlertBadge}
      {badges : List AlertBadge} {a : Alert} (halert : o.alert = some a)
      (htier : badge.tier = a.kind.classify.tier) (hicon : badge.icon = a.kind.classify.icon)
      (hmessage : badge.message = a.message) (hdescription : badge.description = a.description)
      (hopen : badge.closable = false) (hroute : badge.navigateTo = o.navigateTo)
      (rest : Listed owners badges) : Listed (o :: owners) (badge :: badges)

/-- Debug mode displays every kind. -/
theorem AlertKind.isDisplayed_debug (kind : AlertKind) : kind.isDisplayed true = true := by
  cases kind <;> rfl

/-- Outside debug mode the severity decides what is displayed. -/
theorem AlertKind.isDisplayed_quiet (kind : AlertKind) :
    kind.isDisplayed false =
      decide (kind.classify.tier = .warning ∨ kind.classify.tier = .error) := by
  cases kind <;> rfl

namespace AlertPanel

/-- In debug mode a panel has a badge for every entry. -/
theorem collect_debug (entries : List AlertEntry) :
    (collect entries true).alerts = entries.map fun e => e.alert.badge false e.navigateTo := by
  simp only [collect, AlertKind.isDisplayed_debug, List.filter_true]

/-- Outside debug mode it keeps those of a severity that matters. -/
theorem collect_quiet (entries : List AlertEntry) :
    (collect entries false).alerts =
      (collect entries true).alerts.filter fun b => b.tier = .warning ∨ b.tier = .error := by
  rw [collect_debug, List.filter_map, collect]
  simp only [AlertKind.isDisplayed_quiet]
  rfl

/-- What owners give is listed in debug mode. -/
theorem listed_collect (owners : List AlertOwner) :
    AlertOwner.Listed owners (collect (owners.filterMap AlertOwner.entry?) true).alerts := by
  rw [collect_debug]
  induction owners with
  | nil => exact .nil
  | cons o owners ih =>
    obtain ⟨alert, navigateTo⟩ := o
    cases alert with
    | none => exact .silent rfl ih
    | some a => exact .alert rfl rfl rfl rfl rfl rfl rfl ih

end AlertPanel

/-! ## Section 3 — panels -/

/-- In debug mode the panel of a view lists exactly the alerts of the view's owners; outside
debug mode it is what remains of that list when only warnings and errors are kept.  Nothing else
of the context matters. -/
theorem Snapshot.panel_lists (s : Snapshot) (ctx ctx' : ViewContext) :
    Option.Rel (fun owners p => AlertOwner.Listed owners p.alerts)
        s.alertOwners? (s.render { ctx with debug := true }).panel? ∧
      (s.render { ctx' with debug := false }).panel? =
        (s.render { ctx with debug := true }).panel?.map fun p =>
        ⟨p.alerts.filter fun b => b.tier = .warning ∨ b.tier = .error⟩ := by
  rw [s.panel?_render, s.panel?_render]
  cases s.alertOwners? with
  | none => exact ⟨.none, rfl⟩
  | some owners =>
    exact ⟨.some (AlertPanel.listed_collect owners),
      congrArg (some ∘ AlertPanel.mk)
        (AlertPanel.collect_quiet (owners.filterMap AlertOwner.entry?))⟩

/-- Beside a coprocessor that warns and a device without an alert, the home panel lists an error
that names its view, and a mere notification only in debug mode. -/
example :
    let named := { name := "a", uiViewName := some "garage",
                   alert := some ⟨.error, "stuck", none⟩ : DeviceState }
    let noted := { name := "b", alert := some ⟨.notification, "tick", none⟩ : DeviceState }
    let s : Snapshot := .home
      { ble := some { devices := [], coproAlert := some ⟨.inhibited, "radio", some "off"⟩ }
        devicesWithAlert := some [{ name := "c" }, noted, named] }
    (s.render ⟨.default, false, true, 0⟩).panel? =
        some ⟨[⟨.warning, some .inhibited, "radio", some "off", false, some "ble"⟩,
          ⟨.info, none, "tick", none, false, none⟩,
          ⟨.error, none, "stuck", none, false, some "devices/garage"⟩]⟩ ∧
      (s.render ⟨.default, false, false, 0⟩).panel? =
        some ⟨[⟨.warning, some .inhibited, "radio", some "off", false, some "ble"⟩,
          ⟨.error, none, "stuck", none, false, some "devices/garage"⟩]⟩ := by
  decide

end HouseBoard
