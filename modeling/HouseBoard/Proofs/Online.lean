/-
HouseBoard.Proofs.Online — when a device is shown as online.

A report speaks for a device that was heard and of which it says how long ago.  Section 1 says
exactly which cards are online: those of devices for which a report speaks, and those of devices
that were heard at an age of which nothing is reported, which then counts as zero.  Section 2
says for which snapshots the second kind does not occur, and shows one for which it does.
-/
import HouseBoard.Proofs.Absence

namespace HouseBoard

/-! ## Section 1 — cards -/

/-- Stopping at the largest number of seconds decides nothing, since no threshold
lies beyond it. -/
theorem addSeconds_lt_iff {age offset threshold : Nat} (h : threshold ≤ maxSeconds) :
    addSeconds age offset < threshold ↔ age + offset < threshold := by
  unfold addSeconds
  omega

/-- Thresholds are numbers of seconds that fit 64 bits. -/
def LivenessPolicy.Fits (p : LivenessPolicy) : Prop := ∀ cls, p.threshold cls ≤ maxSeconds

namespace Report

/-- Both the time at which the device was heard and its age are reported, and with the seconds
since then the age stays below the threshold of the class. -/
def SpeaksFor (r : Report) (ctx : ViewContext) : Prop :=
  r.lastSeenAt.isSome = true ∧ ∃ age, r.lastSeenFromNow = some age ∧
    age + ctx.offset < ctx.policy.threshold r.cls

/-- The device was heard, but nothing is reported of how long ago. -/
def LacksAge (r : Report) : Prop := r.lastSeenAt.isSome = true ∧ r.lastSeenFromNow = none

/-- What a card says of being online. -/
theorem online_card (r : Report) (ctx : ViewContext) :
    (r.card ctx).liveness.online = (r.lastSeenAt.isSome &&
      decide (addSeconds (r.lastSeenFromNow.getD 0) ctx.offset <
        ctx.policy.threshold r.cls)) := by
  have hview (seen : Option Timestamp) (age : Option Nat) (cls : DeviceClass) :
      ((LivenessSample.ofReport seen age cls ctx.policy).view ctx.offset).online =
        (seen.isSome &&
          decide (addSeconds (age.getD 0) ctx.offset < ctx.policy.threshold cls)) := by
    cases seen with
    | none => rfl
    | some t => rfl
  cases r with
  | bus d => exact hview d.lastSeenAt d.lastSeenFromNow .caniot
  | radio d => exact hview d.lastSeenAt d.lastSeenFromNow .ble

/-- A card is online exactly if the report speaks for its device, or lacks an age while the
seconds since the snapshot stay below the threshold. -/
theorem online_card_iff (r : Report) {ctx : ViewContext} (hpolicy : ctx.policy.Fits) :
    (r.card ctx).liveness.online = true ↔
      r.SpeaksFor ctx ∨ (r.LacksAge ∧ ctx.offset < ctx.policy.threshold r.cls) := by
  rw [online_card, Bool.and_eq_true, decide_eq_true_iff, addSeconds_lt_iff (hpolicy r.cls)]
  cases hage : r.lastSeenFromNow with
  | none => simp [SpeaksFor, LacksAge, hage]
  | some age => simp [SpeaksFor, LacksAge, hage]

end Report

/-! ## Section 2 — views -/

/-- Only devices for which a report speaks are online in the view of a snapshot. -/
def Snapshot.NoFalseOnline (s : Snapshot) (ctx : ViewContext) : Prop :=
  List.Forall₂ (fun (c : DeviceCard) r => c.liveness.online = true → r.SpeaksFor ctx)
    (s.render ctx).cards s.reports

/-- The cards of a view are related to the reports in its snapshot if each report is related
to its own card. -/
theorem Snapshot.forall₂_cards_iff {R : DeviceCard → Report → Prop} (s : Snapshot)
    (ctx : ViewContext) :
    List.Forall₂ R (s.render ctx).cards s.reports ↔ ∀ r ∈ s.reports, R (r.card ctx) r := by
  rw [s.cards_render, List.forall₂_map_left_iff, List.forall₂_same]

/-- The cards that are online are those of the devices for which a report speaks, and of those
that were heard at an age of which nothing is reported while less time than their threshold has
passed since the snapshot.  So no device is falsely online exactly if the threshold has passed
for each device whose age is not reported. -/
theorem Snapshot.online_iff (s : Snapshot) (ctx : ViewContext) (hpolicy : ctx.policy.Fits) :
    List.Forall₂ (fun (c : DeviceCard) r => c.liveness.online = true ↔
        r.SpeaksFor ctx ∨ (r.LacksAge ∧ ctx.offset < ctx.policy.threshold r.cls))
          (s.render ctx).cards s.reports ∧
      (s.NoFalseOnline ctx ↔ ∀ r ∈ s.reports, r.LacksAge →
        ctx.policy.threshold r.cls ≤ ctx.offset) := by
  refine ⟨(s.forall₂_cards_iff ctx).mpr fun r _ => r.online_card_iff hpolicy, ?_⟩
  rw [NoFalseOnline, s.forall₂_cards_iff ctx]
  refine forall₂_congr fun r _ => ?_
  rw [r.online_card_iff hpolicy]
  constructor
  · intro hspeaks hlacks
    by_contra hbelow
    obtain ⟨_, age, hage, _⟩ := hspeaks (.inr ⟨hlacks, Nat.lt_of_not_le hbelow⟩)
    rw [hlacks.2] at hage
    cases hage
  · rintro hpassed (hspeaks | ⟨hlacks, hbelow⟩)
    · exact hspeaks
    · exact absurd (hpassed hlacks) (Nat.not_le_of_lt hbelow)

/-- Heaters that were heard at noon of the first of June 2024, at an age of which
nothing is reported. -/
def HeaterState.ageless : HeaterState where
  device :=
    { name := "heaters", did := some ⟨1⟩, lastSeenAt := some ⟨⟨2024, 6, 1⟩, 12, 0, 0, 0, 0⟩ }
  heaters := [.comfort]

/-- A minute after the snapshot, no device of the heaters' view is falsely online any more. -/
theorem Snapshot.online_iff_after_minute :
    LivenessPolicy.default.Fits ∧ (Snapshot.heaters .ageless).NoFalseOnline
      ⟨.default, false, false, 60⟩ := by
  have hpolicy : LivenessPolicy.default.Fits := by
    intro cls
    cases cls <;> decide
  refine ⟨hpolicy,
    ((Snapshot.heaters .ageless).online_iff ⟨.default, false, false, 60⟩ hpolicy).2.mpr ?_⟩
  intro r hr _
  obtain rfl := List.mem_singleton.mp hr
  decide

/-- At the moment of the snapshot the heaters are online, although nothing is
reported of their age. -/
theorem Snapshot.online_without_age :
    ∃ c r, (Snapshot.render (.heaters .ageless) ⟨.default, false, false, 0⟩).cards = [c] ∧
      (Snapshot.heaters .ageless).reports = [r] ∧ r.lastSeenFromNow = none ∧
      c.liveness.online = true ∧
      ¬ (Snapshot.heaters .ageless).NoFalseOnline ⟨.default, false, false, 0⟩ := by
  refine ⟨_, _, rfl, rfl, rfl, by decide, ?_⟩
  intro hhonest
  have hspeaks := ((Snapshot.forall₂_cards_iff _ _).mp hhonest)
    (.bus HeaterState.ageless.device) List.mem_cons_self
  obtain ⟨_, age, hage, _⟩ := hspeaks (by decide)
  cases hage

end HouseBoard
