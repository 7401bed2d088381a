/-
HouseBoard.Proofs.Links — where the links of a view lead.

Cards, their badges and the badges of panels may have a link.  Section 1 says which links a view
has: one for each device that names a view and has a card, or whose alert the home panel
displays, and one to the radio sensors while the alert of their coprocessor is displayed.
Section 2 says which of them lead anywhere: the link of a device has the prefix of devices, so
it leads to a device if the name is a number, and the name of a controller leads nowhere.
-/
import HouseBoard.Board.Fetch
import HouseBoard.Proofs.Names
import HouseBoard.Proofs.Panels

namespace HouseBoard

/-! ## Section 1 — links -/

/-- The links of a card: its own and that of its badge. -/
def DeviceCard.targets (c : DeviceCard) : List String :=
  c.navigateTo.toList ++ (c.alert.bind AlertBadge.navigateTo).toList

/-- The links of a panel. -/
def AlertPanel.targets (p : AlertPanel) : List String :=
  p.alerts.filterMap AlertBadge.navigateTo

/-- The links of a view. -/
def ViewModel.targets (m : ViewModel) : List String :=
  m.cards.flatMap DeviceCard.targets ++ (m.panel?.map AlertPanel.targets).getD []

namespace Snapshot

/-- The devices on the bus that have cards. -/
def carded (s : Snapshot) : List DeviceState := s.reports.filterMap fun
  | .bus d => some d
  | .radio _ => none

/-- The devices whose alerts go to a panel that has links. -/
def alerted : Snapshot → List DeviceState
  | .home s => s.devicesWithAlert.getD []
  | .ble _ | .garage _ | .heaters _ | .alarm _ | .device _ => []

/-- The alert of the coprocessor, where a panel has a link for it. -/
def coproAlert? : Snapshot → Option Alert
  | .home s => s.ble.bind (·.coproAlert)
  | .ble _ | .garage _ | .heaters _ | .alarm _ | .device _ => none

/-- The devices that a view has links for as soon as they name a view. -/
def linked (s : Snapshot) (debug : Bool) : List DeviceState :=
  s.carded ++ s.alerted.filter fun d => d.alert.any (·.kind.isDisplayed debug)

/-- Whether a view has a link to the radio sensors. -/
def linksSensors (s : Snapshot) (debug : Bool) : Bool :=
  s.coproAlert?.any (·.kind.isDisplayed debug)

end Snapshot

variable {t : String}

/-- The card of a device and its badge have the link of the device, and radio
sensors have none. -/
theorem Report.mem_targets_card (r : Report) (ctx : ViewContext) :
    t ∈ (r.card ctx).targets ↔ ∃ d, r = .bus d ∧ d.controllerRoute = some t := by
  cases r with
  | bus d =>
    have hcard : t ∈ ((Report.bus d).card ctx).targets ↔ d.controllerRoute = some t := by
      unfold DeviceCard.targets
      rw [List.mem_append, Option.mem_toList, Option.mem_toList]
      constructor
      · rintro (hown | hbadge)
        · exact hown
        · obtain ⟨badge, halert, hlink⟩ := Option.bind_eq_some_iff.mp hbadge
          obtain ⟨a, -, rfl⟩ := Option.map_eq_some_iff.mp halert
          exact hlink
      · exact .inl
    rw [hcard]
    constructor
    · exact fun h => ⟨d, rfl, h⟩
    · rintro ⟨d', hd, h⟩
      cases hd
      exact h
  | radio d =>
    have hnone : ((Report.radio d).card ctx).targets = [] := by
      unfold DeviceCard.targets
      change [] ++
        ((d.alert.map fun a => a.badge true none).bind AlertBadge.navigateTo).toList = []
      cases d.alert with
      | none => rfl
      | some a => rfl
    rw [hnone]
    exact iff_of_false List.not_mem_nil fun ⟨_, hd, _⟩ => nomatch hd

/-- A panel has the links of the owners whose alerts it displays. -/
theorem AlertPanel.mem_targets_collect (owners : List AlertOwner) (debug : Bool) :
    t ∈ (collect (owners.filterMap AlertOwner.entry?) debug).targets ↔
      ∃ o ∈ owners, o.alert.any (·.kind.isDisplayed debug) = true ∧ o.navigateTo = some t := by
  simp only [targets, collect, List.mem_filterMap, List.mem_map, List.mem_filter]
  constructor
  · rintro ⟨badge, ⟨e, ⟨⟨o, ho, hentry⟩, hshown⟩, rfl⟩, hlink⟩
    obtain ⟨a, halert, rfl⟩ := Option.map_eq_some_iff.mp hentry
    exact ⟨o, ho, by rw [halert]; exact hshown, hlink⟩
  · rintro ⟨o, ho, hshown, hlink⟩
    obtain ⟨a, halert, hdisplayed⟩ := (Option.any_eq_true _ _).mp hshown
    exact ⟨_, ⟨_, ⟨⟨o, ho, Option.map_eq_some_iff.mpr ⟨a, halert, rfl⟩⟩, hdisplayed⟩, rfl⟩,
      hlink⟩

theorem Snapshot.mem_targets_cards (s : Snapshot) (ctx : ViewContext) :
    t ∈ (s.render ctx).cards.flatMap DeviceCard.targets ↔ ∃ d ∈ s.carded,
    d.controllerRoute = some t := by
  simp only [s.cards_render, List.mem_flatMap, List.mem_map, carded, List.mem_filterMap]
  constructor
  · rintro ⟨c, ⟨r, hr, rfl⟩, ht⟩
    obtain ⟨d, rfl, hroute⟩ := (r.mem_targets_card ctx).mp ht
    exact ⟨d, ⟨.bus d, hr, rfl⟩, hroute⟩
  · rintro ⟨d, ⟨r, hr, hd⟩, hroute⟩
    cases r with
    | bus d' =>
      cases hd
      exact ⟨_, ⟨.bus d, hr, rfl⟩, ((Report.bus d).mem_targets_card ctx).mpr ⟨d, rfl, hroute⟩⟩
    | radio d' => cases hd

/-- The panel of the home view has links, and that of the radio sensors has none. -/
theorem Snapshot.mem_targets_panel (s : Snapshot) (ctx : ViewContext) :
    t ∈ ((s.render ctx).panel?.map AlertPanel.targets).getD [] ↔
      (s.linksSensors ctx.debug = true ∧ t = "ble") ∨
        ∃ d ∈ s.alerted, d.alert.any (·.kind.isDisplayed ctx.debug) = true ∧
        d.controllerRoute = some t := by
  rw [s.panel?_render, Option.map_map]
  cases s with
  | home s =>
    simp only [alertOwners?, Option.map_some, Option.getD_some, Function.comp,
      AlertPanel.mem_targets_collect, HomeSnapshot.alertOwners, List.exists_mem_cons_iff]
    refine or_congr (and_congr Iff.rfl ?_) ?_
    · rw [Option.some_inj, eq_comm]
    · constructor
      · rintro ⟨o, ho, hshown, hlink⟩
        obtain ⟨d, hd, rfl⟩ := List.mem_map.mp ho
        exact ⟨d, hd, hshown, hlink⟩
      · rintro ⟨d, hd, hshown, hlink⟩
        exact ⟨_, List.mem_map.mpr ⟨d, hd, rfl⟩, hshown, hlink⟩
  | ble l =>
    have hnone : ∀ o ∈ l.alertOwners, o.navigateTo = none := by
      intro o ho
      rcases List.mem_cons.mp ho with rfl | hsensor
      · rfl
      · obtain ⟨d, -, rfl⟩ := List.mem_map.mp hsensor
        rfl
    simp only [alertOwners?, Option.map_some, Option.getD_some, Function.comp,
      AlertPanel.mem_targets_collect]
    refine iff_of_false ?_ ?_
    · rintro ⟨o, ho, -, hlink⟩
      rw [hnone o ho] at hlink
      cases hlink
    · rintro (⟨hshown, -⟩ | ⟨d, hd, -⟩)
      · cases hshown
      · cases hd
  | _ =>
    refine iff_of_false List.not_mem_nil ?_
    rintro (⟨hshown, -⟩ | ⟨d, hd, -⟩)
    · cases hshown
    · cases hd

/-- The links of a view are those to the radio sensors and to what its devices name. -/
theorem Snapshot.mem_targets_iff (s : Snapshot) (ctx : ViewContext) :
    t ∈ (s.render ctx).targets ↔
      (s.linksSensors ctx.debug = true ∧ t = "ble") ∨
        ∃ d ∈ s.linked ctx.debug, ∃ name, d.uiViewName = some name ∧
        t = "devices/" ++ name := by
  have hroute (d : DeviceState) :
      d.controllerRoute = some t ↔ ∃ name, d.uiViewName = some name ∧
      t = "devices/" ++ name := by
    rw [DeviceState.controllerRoute, Option.map_eq_some_iff]
    exact exists_congr fun name => and_congr_right fun _ => eq_comm
  simp only [ViewModel.targets, List.mem_append, s.mem_targets_cards ctx,
    s.mem_targets_panel ctx, linked, hroute, List.mem_filter, or_and_right,
    exists_or, and_assoc]
  exact or_left_comm

/-! ## Section 2 — where they lead -/

/-- A text is the number of a device, which may carry a plus sign and zeros in front. -/
def DeviceRef.IsNumber (name : String) : Prop :=
  ∃ sign digits n, (sign = "" ∨ sign = "+") ∧ Digits.Numeral digits n ∧ n ≤ 255 ∧
    name = sign ++ digits

/-- The link of a device leads to a view exactly if the device names a number. -/
theorem ViewKind.exists_ofRoute?_device {name : String} :
    (∃ kind, ofRoute? ("devices/" ++ name) = some kind) ↔ DeviceRef.IsNumber name := by
  simp only [ofRoute?_device, Option.map_eq_some_iff]
  constructor
  · rintro ⟨kind, did, hdid, rfl⟩
    obtain ⟨sign, digits, hsign, hdigits, hname⟩ := DeviceRef.ofChars?_eq_some_iff.mp hdid
    exact ⟨sign, digits, _, hsign, hdigits, Nat.le_of_lt_succ did.number.toNat_lt,
      String.toList_inj.mp hname⟩
  · rintro ⟨sign, digits, n, hsign, hdigits, hbound, rfl⟩
    have hnumber : (UInt8.ofNat n).toNat = n :=
      UInt8.toNat_ofNat_of_lt' (Nat.lt_succ_of_le hbound)
    refine ⟨_, ⟨UInt8.ofNat n⟩, DeviceRef.ofChars?_eq_some_iff.mpr
      ⟨sign, digits, hsign, ?_, rfl⟩, rfl⟩
    rwa [hnumber]

/-- The view of a controller. -/
def Owner.kind : Owner → ViewKind
  | .garage => .garage
  | .heaters => .heaters
  | .alarm => .alarm

/-- The name of a controller is a route of its view, but what a link makes of it is none. -/
theorem Owner.ofRoute?_of_ofName? {name : String} {owner : Owner}
    (h : ofName? name = some owner) :
    ViewKind.ofRoute? name = some owner.kind ∧
    ViewKind.ofRoute? ("devices/" ++ name) = none := by
  unfold ofName? at h
  split at h
  case h_5 => cases h
  all_goals
    cases h
    decide

/-- A view has a link for each of its devices that names a view, and one to the radio sensors
while the alert of their coprocessor is displayed.  All of them lead to views exactly if each of
these names is the number of a device; so the link of a device that names its controller leads
nowhere, although the name alone is a route of the controller's view. -/
theorem Snapshot.links_resolve_iff (s : Snapshot) (ctx : ViewContext) :
    (∀ t, t ∈ (s.render ctx).targets ↔
      (s.linksSensors ctx.debug = true ∧ t = "ble") ∨
        ∃ d ∈ s.linked ctx.debug, ∃ name, d.uiViewName = some name ∧ t = "devices/" ++ name) ∧
      ((∀ t ∈ (s.render ctx).targets, ∃ kind, ViewKind.ofRoute? t = some kind) ↔
        ∀ d ∈ s.linked ctx.debug, ∀ name, d.uiViewName = some name → DeviceRef.IsNumber name) ∧
      ∀ d ∈ s.linked ctx.debug, ∀ owner, Owner.of? d = some owner →
        ∃ name, d.uiViewName = some name ∧ "devices/" ++ name ∈ (s.render ctx).targets ∧
          ViewKind.ofRoute? ("devices/" ++ name) = none ∧
          ViewKind.ofRoute? name = some owner.kind := by
  refine ⟨fun t => s.mem_targets_iff ctx, ⟨fun h d hd name hname => ?_, fun h t ht => ?_⟩,
    fun d hd owner howner => ?_⟩
  · exact ViewKind.exists_ofRoute?_device.mp
      (h _ ((s.mem_targets_iff ctx).mpr (.inr ⟨d, hd, name, hname, rfl⟩)))
  · rcases (s.mem_targets_iff ctx).mp ht with ⟨-, rfl⟩ | ⟨d, hd, name, hname, rfl⟩
    · exact ⟨.ble, rfl⟩
    · exact ViewKind.exists_ofRoute?_device.mpr (h d hd name hname)
  · obtain ⟨name, hname, hname'⟩ := Option.bind_eq_some_iff.mp howner
    obtain ⟨hroute, hdead⟩ := Owner.ofRoute?_of_ofName? hname'
    exact ⟨name, hname, (s.mem_targets_iff ctx).mpr (.inr ⟨d, hd, name, hname, rfl⟩),
      hdead, hroute⟩

/-- Heaters that name their view. -/
def HeaterState.named : HeaterState where
  device := { name := "heaters", did := some ⟨1⟩, uiViewName := some "heaters" }
  heaters := [.comfort]
  powerStatus := true

/-- The card of such heaters has a link, which leads nowhere. -/
theorem Snapshot.heaters_link_dead :
    "devices/heaters" ∈
      (Snapshot.render (.heaters .named) ⟨.default, false, false, 0⟩).targets ∧
      ViewKind.ofRoute? "devices/heaters" = none ∧
      ViewKind.ofRoute? "heaters" = some .heaters := by
  decide

end HouseBoard
