/-
HouseBoard.Proofs.Duration — how long fetches take.

A fetch makes two calls one after the other at most.  So it ends within twice the time that the
longest call takes, and the bound is kept through all that a task does: a fetch ends by an
instant if what it waits for now does, with the time of the call that may still follow.
-/
import HouseBoard.Proofs.Sound

namespace HouseBoard

/-! ## Section 1 — fetches -/

/-- No call takes longer than some milliseconds. -/
def Script.Within (s : Script) (limit : Nat) : Prop :=
  ∀ c ms, s.delayOf c = some ms → ms ≤ limit

/-- The time that a fetch may take after the call that is on its way. -/
def Fetch.ahead (limit : Nat) : Fetch → Nat
  | .device _ _ => limit
  | _ => 0

/-- A fetch ends by an instant if no call that is still to be made takes longer than
some milliseconds. -/
structure Fetch.EndsBy (limit now last : Nat) (f : Fetch) : Prop where
  now_le : now + f.ahead limit ≤ last
  timers_le : ∀ e ∈ f.timers, e.1 + f.ahead limit ≤ last

/-- A fetch after a step has ended, or ends by an instant. -/
def Progress.EndsBy (limit now last : Nat) : Progress → Prop
  | .underway f => f.EndsBy limit now last
  | .ended _ => True

section Durations

variable {scene : Scene} {limit last : Nat}

theorem Pending.start_within (hscript : scene.script.Within limit) (c : Call) :
    (Pending.start scene c).Ensures fun _ p => ∀ e ∈ p.timer?, e.1 ≤ scene.now + limit := by
  unfold Pending.start
  refine (Act.ensures_emit (P := fun _ _ => True) trivial).bind ?_
  rintro _ ⟨⟩ -
  cases hdelay : scene.script.delayOf c with
  | some ms =>
    refine (Act.ensures_stamp (P := fun _ _ => True) fun _ => trivial).bind ?_
    rintro _ stamp -
    refine Act.ensures_pure fun e he => ?_
    cases he
    exact Nat.add_le_add_left (hscript c ms hdelay) scene.now
  | none =>
    refine (Act.ensures_emit (P := fun _ _ => True) trivial).bind ?_
    rintro _ ⟨⟩ -
    exact Act.ensures_pure (by simp [timer?])

theorem Pending.proceed_within {c : Call} (p : Pending c) :
    (p.proceed scene).Ensures fun _ p' => ∀ e ∈ p'.timer?, e ∈ p.timer? := by
  cases p with
  | answered o => exact Act.ensures_pure fun e he => he
  | waiting due stamp =>
    simp only [proceed]
    split
    · refine (Act.ensures_emit (P := fun _ _ => True) trivial).bind ?_
      rintro _ ⟨⟩ -
      exact Act.ensures_pure (by simp [timer?])
    · exact Act.ensures_pure fun e he => he

namespace Fetch

theorem EndsBy.of_single {f : Fetch} {c : Call} {p : Pending c} {now : Nat}
    (hf : f.timers = p.timer?.toList) (hnow : now + f.ahead limit ≤ last)
    (hp : ∀ e ∈ p.timer?, e.1 + f.ahead limit ≤ last) :
    f.EndsBy limit now last where
  now_le := hnow
  timers_le := by
    intro e he
    rw [hf, Option.mem_toList] at he
    exact hp e he

/-- A fetch that starts makes two calls at most, one after the other. -/
theorem start_within (hscript : scene.script.Within limit) (kind : ViewKind) :
    (Fetch.start scene kind).Ensures fun _ f =>
      f.EndsBy limit scene.now (scene.now + 2 * limit) := by
  have hplain (v : PlainView) :
    (do return Fetch.plain v (← Pending.start scene v.call) : Act Fetch).Ensures fun _ f =>
      f.EndsBy limit scene.now (scene.now + 2 * limit) := by
    refine (Pending.start_within hscript v.call).bind ?_
    intro _ p hp
    refine Act.ensures_pure (.of_single rfl (Nat.le_add_right _ _) fun e he => ?_)
    have hle := hp e he
    simp only [ahead]
    omega
  cases kind with
  | home =>
    refine (Pending.start_within hscript .heaters).bind ?_
    intro _ heaters hheaters
    refine (Pending.start_within hscript .alarm).bind ?_
    intro _ alarm halarm
    refine (Pending.start_within hscript .devicesWithAlert).bind ?_
    intro _ alerts halerts
    refine (Pending.start_within hscript .ble).bind ?_
    intro _ ble hble
    refine Act.ensures_pure ⟨Nat.le_add_right _ _, fun e he => ?_⟩
    have hle : e.1 ≤ scene.now + limit := by
      rcases mem_timers_home.mp he with he | he | he | he
      · exact hheaters e he
      · exact halarm e he
      · exact halerts e he
      · exact hble e he
    simp only [ahead]
    omega
  | ble => exact hplain .ble
  | garage => exact hplain .garage
  | heaters => exact hplain .heaters
  | alarm => exact hplain .alarm
  | device did =>
    refine (Pending.start_within hscript (.device did)).bind ?_
    intro _ p hp
    refine Act.ensures_pure (.of_single rfl ?_ fun e he => ?_)
    · simp only [ahead]
      omega
    · have hle := hp e he
      simp only [ahead]
      omega

theorem proceedOwner_within (state : DeviceState) (owner : Owner) {p : Pending owner.call}
    (hnow : scene.now ≤ last) (hp : ∀ e ∈ p.timer?, e.1 ≤ last) :
    (Fetch.proceedOwner scene state owner p).Ensures fun _ r =>
      Progress.EndsBy limit scene.now last r := by
  unfold proceedOwner
  refine p.proceed_within.bind ?_
  intro _ p' hp'
  split
  · exact Act.ensures_pure (EndsBy.of_single rfl hnow fun e he => hp e (hp' e he))
  · refine (Act.settle_ensures owner.call _).bind ?_
    rintro _ _ -
    exact Act.ensures_pure trivial

theorem proceedDevice_within (hscript : scene.script.Within limit) (did : DeviceRef)
    {p : Pending (.device did)} (hnow : scene.now + limit ≤ last)
    (hp : ∀ e ∈ p.timer?, e.1 + limit ≤ last) :
    (Fetch.proceedDevice scene did p).Ensures fun _ r =>
      Progress.EndsBy limit scene.now last r := by
  unfold proceedDevice
  refine p.proceed_within.bind ?_
  intro _ p' hp'
  split
  · exact Act.ensures_pure (EndsBy.of_single rfl hnow fun e he => hp e (hp' e he))
  · refine (Act.settle_ensures (.device did) _).bind ?_
    rintro _ taken -
    split
    · exact Act.ensures_pure trivial
    · rename_i state
      split
      · exact Act.ensures_pure trivial
      · rename_i owner _
        -- this is the time that lay ahead
        refine (Pending.start_within hscript owner.call).bind ?_
        intro _ q hq
        exact proceedOwner_within state owner (by omega) fun e he => Nat.le_trans (hq e he) hnow

/-- A fetch that goes on ends by the same instant. -/
theorem proceed_within (hscript : scene.script.Within limit) {f : Fetch}
    (hf : f.EndsBy limit scene.now last) :
    (f.proceed scene).Ensures fun _ r => Progress.EndsBy limit scene.now last r := by
  have hnow := hf.now_le
  have htimers := hf.timers_le
  cases f with
  | home known heaters alarm alerts ble =>
    refine heaters.proceed_within.bind ?_
    intro _ heaters' hheaters
    refine alarm.proceed_within.bind ?_
    intro _ alarm' halarm
    refine alerts.proceed_within.bind ?_
    intro _ alerts' halerts
    refine ble.proceed_within.bind ?_
    intro _ ble' hble
    split
    · refine (settleHome_ensures known _ _ _ _).bind ?_
      rintro _ _ -
      exact Act.ensures_pure trivial
    · refine Act.ensures_pure ⟨hnow, fun e he => ?_⟩
      rcases mem_timers_home.mp he with he | he | he | he
      · exact htimers e (mem_timers_home.mpr (.inl (hheaters e he)))
      · exact htimers e (mem_timers_home.mpr (.inr (.inl (halarm e he))))
      · exact htimers e (mem_timers_home.mpr (.inr (.inr (.inl (halerts e he)))))
      · exact htimers e (mem_timers_home.mpr (.inr (.inr (.inr (hble e he)))))
  | plain view pending =>
    refine pending.proceed_within.bind ?_
    intro _ p' hp'
    split
    · exact Act.ensures_pure
        (EndsBy.of_single rfl hnow fun e he => htimers e (by simpa [timers] using hp' e he))
    · refine (Act.settle_ensures view.call _).bind ?_
      rintro _ _ -
      exact Act.ensures_pure trivial
  | device did pending =>
    exact proceedDevice_within hscript did hnow fun e he =>
      htimers e (by simpa [timers] using he)
  | controller state owner pending =>
    exact proceedOwner_within state owner hnow fun e he =>
      htimers e (by simpa [timers] using he)

theorem EndsBy.pass {f : Fetch} {now n : Nat} (hf : f.EndsBy limit now last)
    (hsleeps : f.SleepsUntil n) :
    f.EndsBy limit n last where
  now_le := by
    obtain ⟨e, he⟩ := List.exists_mem_of_ne_nil _ hsleeps.1
    exact Nat.le_trans (Nat.add_le_add_right (hsleeps.2 e he) _) (hf.timers_le e he)
  timers_le := hf.timers_le

theorem EndsBy.mono {f : Fetch} {now last' : Nat} (hf : f.EndsBy limit now last)
    (hle : last ≤ last') :
    f.EndsBy limit now last' where
  now_le := Nat.le_trans hf.now_le hle
  timers_le := fun e he => Nat.le_trans (hf.timers_le e he) hle

end Fetch

theorem ViewTask.proceed_within (hscript : scene.script.Within limit) {t : ViewTask}
    (ht : ∀ f, t.fetch = some f → f.EndsBy limit scene.now last) :
    (t.proceed scene).Ensures fun _ t' => ∀ f, t'.fetch = some f →
    f.EndsBy limit scene.now last := by
  unfold proceed
  split
  · rename_i hnone
    refine Act.ensures_pure fun f hf => ?_
    rw [hnone] at hf
    cases hf
  · rename_i f hfetch
    refine (Fetch.proceed_within hscript (ht f hfetch)).bind ?_
    intro _ r hr
    split
    · exact Act.ensures_pure fun f' hf' => by cases hf'; exact hr
    · exact Act.ensures_pure fun f' hf' => nomatch hf'
    · refine (Act.ensures_emit (P := fun _ _ => True) trivial).bind ?_
      rintro _ ⟨⟩ -
      exact Act.ensures_pure fun f' hf' => nomatch hf'

end Durations

/-! ## Section 2 — turns and steps -/

namespace Board

variable {b b' : Board} {limit last : Nat} {t : ViewTask} {m : Move}

theorem turn_within (hscript : b.script.Within limit)
    (ht : ∀ f, t.fetch = some f → f.EndsBy limit b.now last) (hm : m ≠ .poll) :
    ∀ f, (b.turn t m).1.fetch = some f → f.EndsBy limit b.now last := by
  cases m with
  | answers =>
    have hlast : ∀ f, t.fetch = some f → f.EndsBy limit (b.scene t.id).now last := ht
    exact b.turn_meets (m := .answers) (ViewTask.proceed_within hscript hlast)
  | poll => exact absurd rfl hm
  | tick =>
    rw [(b.turn_tick t).2.1]
    exact ht
  | rest =>
    rw [(b.turn_rest t).2.2.1]
    exact ht

/-- A fetch that starts ends within the time of two calls. -/
theorem turn_poll_within (hscript : b.script.Within limit) (t : ViewTask) :
    ∀ f, (b.turn t .poll).1.fetch = some f → f.EndsBy limit b.now (b.now + 2 * limit) := by
  have hpoll : (t.startPoll b.intervals (b.scene t.id)).Ensures fun _ t' =>
      ∀ f, t'.fetch = some f → f.EndsBy limit b.now (b.now + 2 * limit) := by
    have hscene : (b.scene t.id).script.Within limit := hscript
    refine (Fetch.start_within hscene t.kind).bind ?_
    intro _ f hf
    refine Act.ensures_pure fun f' hf' => ?_
    cases hf'
    exact hf
  exact b.turn_meets (m := .poll) hpoll

end Board

/-- Each fetch that is on its way ends within the time of two calls. -/
def Board.Prompt (b : Board) (limit : Nat) : Prop :=
  ∀ id t f, b.task? id = some t → t.fetch = some f → f.EndsBy limit b.now (b.now + 2 * limit)

/-- Every step keeps fetches prompt while no call takes longer than some time. -/
theorem Step.prompt {b b' : Board} {x : Happening} {limit : Nat} (h : Step b x b')
    (htidy : b.Tidy) (hwithin : b.script.Within limit) (hb : b.Prompt limit) :
    b'.Prompt limit := by
  intro id t' f ht' hf
  cases h.origin htidy ht' with
  | other hx ht =>
    have hends := hb id t' f ht hf
    rcases h.now_cases with hnow | ⟨n, _, hn, hsleeps, rfl⟩
    · rw [hnow]
      exact hends
    · have hlate := (hsleeps t' (Board.task?_mem ht')).2.1
      rw [ViewTask.AwaitsUntil, hf] at hlate
      exact (hends.pass hlate).mono (Nat.add_le_add_right (Nat.le_of_lt hn) _)
  | mounted => cases hf
  | @dropped t ht =>
    rw [h.now_eq (by simp)]
    exact hb id t f ht hf
  | @moved t m ht =>
    rw [h.now_eq (by simp)]
    by_cases hm : m = .poll
    · subst hm
      exact Board.turn_poll_within hwithin t f hf
    · exact Board.turn_within hwithin (fun f' hf' => hb id t f' ht hf') hm f hf

/-! ## Section 3 — runs -/

/-- All that the script is changed to in the course of a run meets a condition. -/
def Happening.Scripted (P : Script → Prop) (h : List Happening) : Prop :=
  ∀ s wall, .attended (.script s) wall ∈ h → P s

theorem Happening.Scripted.append_left {P : Script → Prop} {h h' : List Happening}
    (hh : Scripted P (h ++ h')) :
    Scripted P h := fun s wall hs => hh s wall (List.mem_append_left _ hs)

/-- What the script meets at the start and whenever it is changed, it meets throughout. -/
theorem Run.script {b b' : Board} {h : List Happening} {P : Script → Prop} (hrun : Run b h b')
    (hb : P b.script) (hh : Happening.Scripted P h) : P b'.script := by
  induction hrun with
  | refl => exact hb
  | @step b₁ b₂ h₁ x _ hstep ih =>
    by_cases hx : ∃ s wall, x = .attended (.script s) wall
    · obtain ⟨s, wall, rfl⟩ := hx
      obtain ⟨_, rfl⟩ := hstep.of_attended
      exact hh s wall (by simp)
    · rw [hstep.script_eq fun s wall heq => hx ⟨s, wall, heq⟩]
      exact ih hh.append_left

theorem Run.prompt {b b' : Board} {h : List Happening} {limit : Nat} (hrun : Run b h b')
    (htidy : b.Tidy) (hwithin : b.script.Within limit)
    (hh : Happening.Scripted (·.Within limit) h) (hb : b.Prompt limit) : b'.Prompt limit := by
  induction hrun with
  | refl => exact hb
  | step hrun₁ hstep ih =>
    exact hstep.prompt (hrun₁.tidy htidy) (hrun₁.script hwithin hh.append_left)
      (ih hh.append_left)

end HouseBoard
