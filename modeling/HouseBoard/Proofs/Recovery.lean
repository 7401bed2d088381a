/-
HouseBoard.Proofs.Recovery — errors are survived, and states are learned again.

From an instant on at which the controller answers the calls of a view, a fetch that was on its
way before may still fail; the next one learns a state (Section 1).  Section 2 follows a task
from such an instant to its next commit: first it may wait for a fetch that is stale, then for
its next poll, and then for a fetch that is fresh.  The main statement (Section 4) puts together
what errors do not do to a view.
-/
import HouseBoard.Proofs.Alive
import HouseBoard.Proofs.Beat
import HouseBoard.Proofs.Duration

namespace HouseBoard

/-! ## Section 1 — calls that are answered -/

/-- The calls by which a view learns something, whatever the others bring. -/
def ViewKind.Needs (calls : List Call) : ViewKind → Prop
  | .home => ∃ c ∈ calls, c = .heaters ∨ c = .alarm ∨ c = .devicesWithAlert ∨ c = .ble
  | .ble => .ble ∈ calls
  | .garage => .garage ∈ calls
  | .heaters => .heaters ∈ calls
  | .alarm => .alarm ∈ calls
  | .device did => .device did ∈ calls

/-- A script answers some calls, and with them the calls to the owners of devices
that it names. -/
structure Script.Answers (s : Script) (calls : List Call) : Prop where
  ok : ∀ c ∈ calls, ∃ a, s.outcome c = .ok a
  owner : ∀ did state o, .device did ∈ calls → s.outcome (.device did) = .ok state →
    Owner.of? state = some o →
    o.call ∈ calls

namespace Poll

/-- The answers that a poll has to some calls are no failures. -/
structure Served (p : Poll) (calls : List Call) : Prop where
  ok : ∀ c ∈ calls, ∀ o, p.answers c = some o → ∃ a, o = .ok a
  owner : ∀ did state o, .device did ∈ calls → p.answers (.device did) = some (.ok state) →
    Owner.of? state = some o →
    o.call ∈ calls

variable {p : Poll} {calls : List Call}

theorem served_unseen (known : HomeSnapshot) (calls : List Call) :
    (Poll.unseen known).Served calls where
  ok := fun _ _ _ h => nomatch h
  owner := fun _ _ _ _ h => nomatch h

theorem answers_see_cases {s : Script} {es : List Effect} {c : Call} {o : Outcome c}
    (h : (p.see s es).answers c = some o) : p.answers c = some o ∨ o = s.outcome c := by
  rw [see_answers] at h
  cases hp : p.answers c with
  | some o' =>
    rw [hp, Option.some_or] at h
    exact .inl h
  | none =>
    rw [hp, Option.none_or, Script.answer?] at h
    split at h
    · exact .inr (Option.some.inj h).symm
    · cases h

theorem Served.see (hp : p.Served calls) {s : Script} (hs : s.Answers calls)
    (es : List Effect) :
    (p.see s es).Served calls where
  ok := by
    intro c hc o ho
    rcases answers_see_cases ho with hold | rfl
    · exact hp.ok c hc o hold
    · exact hs.ok c hc
  owner := by
    intro did state o hdid hstate howner
    rcases answers_see_cases hstate with hold | hnew
    · exact hp.owner did state o hdid hold howner
    · exact hs.owner did state o hdid hnew.symm howner

/-- A view whose calls are answered learns something. -/
theorem Served.learned?_ne (hp : p.Served calls) {kind : ViewKind} (hkind : kind.Needs calls) :
    p.learned? kind ≠ some none := by
  have hone {c : Call} (hc : c ∈ calls) (f : c.Reply → Snapshot) :
      ((p.answers c).map fun o => o.toOption.map f) ≠ some none := by
    intro h
    obtain ⟨o, ho, hnone⟩ := Option.map_eq_some_iff.mp h
    obtain ⟨a, rfl⟩ := hp.ok c hc o ho
    cases hnone
  cases kind with
  | home =>
    intro h
    obtain ⟨o₁, o₂, o₃, o₄, h₁, h₂, h₃, h₄, hlearned⟩ := exists_of_learned?_home h
    have hfresh : freshHome o₁ o₂ o₃ o₄ = {} := by
      by_contra hne
      rw [learnedHome, if_neg hne] at hlearned
      cases hlearned
    obtain ⟨c, hc, rfl | rfl | rfl | rfl⟩ := hkind
    · obtain ⟨a, rfl⟩ := hp.ok _ hc o₁ h₁
      cases congrArg HomeSnapshot.heaters hfresh
    · obtain ⟨a, rfl⟩ := hp.ok _ hc o₂ h₂
      cases congrArg HomeSnapshot.alarm hfresh
    · obtain ⟨a, rfl⟩ := hp.ok _ hc o₃ h₃
      cases congrArg HomeSnapshot.devicesWithAlert hfresh
    · obtain ⟨a, rfl⟩ := hp.ok _ hc o₄ h₄
      cases congrArg HomeSnapshot.ble hfresh
  | ble => exact hone hkind _
  | garage => exact hone hkind _
  | heaters => exact hone hkind _
  | alarm => exact hone hkind _
  | device did =>
    intro h
    simp only [learned?] at h
    split at h
    · cases h
    · rename_i e herror
      obtain ⟨a, ha⟩ := hp.ok _ hkind _ herror
      cases ha
    · rename_i state hstate
      split at h
      · cases h
      · rename_i owner howner
        exact hone (hp.owner did state owner hkind hstate howner) _ h

end Poll

/-! ## Section 2 — from answers to the next commit -/

/-- How far a task has come to its next commit, since an instant from which on its
calls are answered. -/
inductive ViewTask.Recovers (calls : List Call) (limit period since now : Nat)
    (t : ViewTask) : Prop where
  /-- The next poll is still to start. -/
  | waits (hnone : t.fetch = none) (hdue : t.poll.due ≤ since + period)
      (hnow : now ≤ since + period + 2 * limit)
  /-- A fetch is on its way that had started before. -/
  | stale {f : Fetch} (hfetch : t.fetch = some f)
      (hends : f.EndsBy limit now (since + 2 * limit)) (hdue : t.poll.due ≤ since + period)
  /-- A fetch is on its way all of whose calls are answered. -/
  | fresh {f : Fetch} {p : Poll} (hfetch : t.fetch = some f) (hagrees : f.Agrees p t.kind)
      (hserved : p.Served calls) (hends : f.EndsBy limit now (since + period + 4 * limit))

namespace ViewTask.Recovers

variable {b : Board} {t t' : ViewTask} {calls : List Call} {limit period since now n : Nat}

theorem congr (h : t.Recovers calls limit period since now) (hkind : t'.kind = t.kind)
    (hfetch : t'.fetch = t.fetch) (hdue : t'.poll.due = t.poll.due) :
    t'.Recovers calls limit period since now := by
  cases h with
  | waits hnone hdue₀ hnow => exact .waits (hfetch.trans hnone) (hdue ▸ hdue₀) hnow
  | stale hfetch₀ hends hdue₀ => exact .stale (hfetch.trans hfetch₀) hends (hdue ▸ hdue₀)
  | fresh hfetch₀ hagrees hserved hends =>
    exact .fresh (hfetch.trans hfetch₀) (hkind ▸ hagrees) hserved hends

theorem pass (h : t.Recovers calls limit period since now) (hsleeps : t.AwaitsUntil n) :
    t.Recovers calls limit period since n := by
  cases h with
  | waits hnone hdue hnow =>
    rw [AwaitsUntil, hnone] at hsleeps
    have hle : n ≤ t.poll.due := hsleeps
    exact .waits hnone hdue (by omega)
  | stale hfetch hends hdue =>
    rw [AwaitsUntil, hfetch] at hsleeps
    exact .stale hfetch (hends.pass hsleeps) hdue
  | fresh hfetch hagrees hserved hends =>
    rw [AwaitsUntil, hfetch] at hsleeps
    exact .fresh hfetch hagrees hserved (hends.pass hsleeps)

/-- When all is done at an instant, there is still time to the next commit. -/
theorem lt_of_awaits (h : t.Recovers calls limit period since now)
    (hrests : t.AwaitsUntil (now + 1)) : now < since + period + 4 * limit := by
  -- were it the last instant, something would be due at it
  have hlate := h.pass hrests
  cases hlate with
  | waits hnone hdue hnow =>
    rw [AwaitsUntil, hnone] at hrests
    have hle : now + 1 ≤ t.poll.due := hrests
    omega
  | stale hfetch hends hdue =>
    have hle := hends.now_le
    omega
  | fresh hfetch hagrees hserved hends =>
    have hle := hends.now_le
    omega

/-- A move after which nothing was learned leads on to the next commit. -/
theorem move {m : Move} (h : t.Recovers calls limit b.intervals.poll since b.now) {q : Poll}
    (hq : ∀ f, t.fetch = some f → f.Agrees q t.kind) (hneeds : t.kind.Needs calls)
    (hanswers : b.script.Answers calls) (hwithin : b.script.Within limit)
    (hallows : t.Allows b.now m)
    (hnothing : (b.turn t m).2.effects.filterMap Effect.learned? = []) :
    (b.turn t m).1.Recovers calls limit b.intervals.poll since b.now := by
  have hkind := b.turn_kind t m
  cases m with
  | answers =>
    obtain ⟨hpoll, _, hnone⟩ := b.turn_answers t
    cases h with
    | waits hnone₀ hdue hnow => exact .waits (hnone hnone₀) (hpoll ▸ hdue) hnow
    | @stale f hfetch hends hdue =>
      -- the calls were made before, and may all have failed
      have hends' := Board.turn_within (t := t) (m := .answers) hwithin
        (by simpa [hfetch] using hends) (by decide)
      cases hfetch' : (b.turn t .answers).1.fetch with
      | some f' => exact .stale hfetch' (hends' f' hfetch') (hpoll ▸ hdue)
      | none =>
        have hle := hends.now_le
        exact .waits hfetch' (hpoll ▸ hdue) (by omega)
    | @fresh f p hfetch hagrees hserved hends =>
      have hp : ∀ f', t.fetch = some f' → f'.Agrees p t.kind := by simpa [hfetch] using hagrees
      have hends' := Board.turn_within (t := t) (m := .answers) hwithin
        (by simpa [hfetch] using hends) (by decide)
      have hserved' (es : List Effect) : (p.see b.script es).Served calls :=
        hserved.see hanswers es
      generalize hes : (b.turn t .answers).2.effects = es at hnothing
      generalize hend : (b.turn t .answers).1 = t' at hkind hends' ⊢
      have hturn := b.turn_cases t .answers hp
      rw [hes, hend] at hturn
      cases hturn with
      | idle hm hsame =>
        exact .fresh (hsame.trans hfetch)
          (hkind ▸ hagrees) hserved (hends' f (hsame.trans hfetch))
      | underway hquiet hbefore hfetch' hagrees' hsleeps =>
        exact .fresh hfetch' (hkind ▸ hagrees') (hserved' es) (hends' _ hfetch')
      | @ended es₀ _ learned hquiet hbefore hfetch' hlearned htaken =>
        -- all calls were answered, and so something was learned
        cases learned with
        | none => exact absurd hlearned ((hserved' es₀).learned?_ne hneeds)
        | some s => simp [Effect.learned?] at hnothing
  | poll =>
    cases h with
    | waits hnone hdue hnow =>
      obtain ⟨hquiet, f, hfetch, hagrees⟩ := (b.turn_cases t .poll hq).of_poll
      have hends := Board.turn_poll_within hwithin t f hfetch
      refine .fresh hfetch (hkind.symm ▸ hagrees) ((Poll.served_unseen _ calls).see hanswers _)
        (hends.mono ?_)
      omega
    | stale hfetch => simp [ViewTask.Allows, pollsAt, hfetch] at hallows
    | fresh hfetch => simp [ViewTask.Allows, pollsAt, hfetch] at hallows
  | tick =>
    obtain ⟨hpoll, hfetch, _⟩ := b.turn_tick t
    exact h.congr hkind hfetch (congrArg Timer.due hpoll)
  | rest =>
    obtain ⟨hdue, _, hfetch, _⟩ := b.turn_rest t
    exact h.congr hkind hfetch hdue

end ViewTask.Recovers

/-! ## Section 3 — steps and runs -/

/-- A view is on its way to its next commit. -/
def Board.Recovers (b : Board) (id : ViewId) (calls : List Call) (limit since : Nat) : Prop :=
  ∃ t, b.task? id = some t ∧ t.cancelled = false ∧ t.kind.Needs calls ∧
    t.Recovers calls limit b.intervals.poll since b.now

/-- Every step in which nothing is learned leads a view that is not given up on to
its next commit. -/
theorem Step.recovers {b b' : Board} {x : Happening} {id : ViewId} {calls : List Call}
    {limit since : Nat} (h : Step b x b') (hb : b.Steady) (hanswers : b.script.Answers calls)
    (hwithin : b.script.Within limit) (hfall : x.isFall = false) (hkept : x ≠ .dropped id)
    (hnothing : x.learned id = []) (hrecovers : b.Recovers id calls limit since) :
    b'.Recovers id calls limit since := by
  obtain ⟨t, ht, hawake, hneeds, hrec⟩ := hrecovers
  rw [Board.Recovers, h.settings_eq.1]
  cases h.fate hb.tidy id with
  | other hx htask =>
    refine ⟨t, htask.trans ht, hawake, hneeds, ?_⟩
    rcases h.now_cases with hnow | ⟨n, _, _, hsleeps, rfl⟩
    · rw [hnow]
      exact hrec
    · exact hrec.pass (hsleeps t (Board.task?_mem ht)).2.1
  | mounted hid =>
    rw [hb.tidy.task?_eq_none (Nat.le_of_eq hid.symm)] at ht
    cases ht
  | dropped => exact absurd rfl hkept
  | left hleft hcancelled =>
    rw [ht] at hleft
    cases hleft
    rw [hawake] at hcancelled
    cases hcancelled
  | @moved u m hmoved hcancelled hallows htask =>
    rw [ht] at hmoved
    cases hmoved
    obtain ⟨_, _, hs⟩ := hb.sound id t ht
    obtain ⟨q, hq, _⟩ := hs.exists_poll
    have hnone : (b.turn t m).2.effects.filterMap Effect.learned? = [] := by
      rw [Happening.learned_moved] at hnothing
      exact List.map_eq_nil_iff.mp hnothing
    rw [h.now_eq (by simp)]
    exact ⟨_, htask, (b.turn_cancelled t m).trans hawake, (b.turn_kind t m).symm ▸ hneeds,
      hrec.move hq hneeds hanswers hwithin hallows hnone⟩
  | fell => cases hfall

theorem Run.recovers {b b' : Board} {h : List Happening} {id : ViewId} {calls : List Call}
    {limit since : Nat} (hrun : Run b h b') (hb : b.Steady)
    (hscript : b.script.Answers calls ∧ b.script.Within limit)
    (hh : Happening.Scripted (fun s => s.Answers calls ∧ s.Within limit) h)
    (hno : ∀ x ∈ h, x.isFall = false) (hkept : .dropped id ∉ h)
    (hnothing : Happening.commits id h = []) (hrecovers : b.Recovers id calls limit since) :
    b'.Recovers id calls limit since := by
  induction hrun with
  | refl => exact hrecovers
  | @step b₁ b₂ h₁ x hrun₁ hstep ih =>
    rw [Happening.commits_append, List.append_eq_nil_iff,
      Happening.commits_singleton] at hnothing
    have hrest := ih hh.append_left (fun y hy => hno y (List.mem_append_left _ hy))
      (fun hmem => hkept (List.mem_append_left _ hmem)) hnothing.1
    obtain ⟨hanswers, hwithin⟩ := hrun₁.script hscript hh.append_left
    refine hstep.recovers (hrun₁.steady hb) hanswers hwithin (hno x (by simp)) ?_
      hnothing.2 hrest
    rintro rfl
    exact hkept (by simp)

/-! ## Section 4 — what errors do not do -/

/-- Once the calls of a view are answered, and while they are, and no call takes longer than
some time, the view learns a state again: within a period and the time of four calls, unless it
is given up before. -/
def Board.CommitsAgain (b : Board) (id : ViewId) (kind : ViewKind) (limit : Nat) : Prop :=
  ∀ calls h b', kind.Needs calls → Run b h b' → (∀ x ∈ h, x.InCalendar b.notifier.lifetime) →
    .dropped id ∉ h →
    b.script.Answers calls → b.script.Within limit →
    Happening.Scripted (fun s => s.Answers calls ∧ s.Within limit) h → b'.Quiet →
    b.now + b.intervals.poll + 4 * limit ≤ b'.now → Happening.commits id h ≠ []

/-- A task that keeps pace is on its way to its next commit from any instant on. -/
theorem Pace.recovers {limit period mounted now : Nat} {t : ViewTask} {opens closes : List Nat}
    (calls : List Call) (hp : Pace period mounted now t opens closes)
    (hends : ∀ f, t.fetch = some f → f.EndsBy limit now (now + 2 * limit)) :
    t.Recovers calls limit period now now := by
  have hdue := hp.due_le
  cases hfetch : t.fetch with
  | none => exact .waits hfetch hdue (by omega)
  | some f => exact .stale hfetch (hends f hfetch) hdue

theorem Board.commitsAgain {b : Board} {id : ViewId} {t : ViewTask} {limit mounted : Nat}
    {opens closes : List Nat} (hb : b.Steady) (ht : b.task? id = some t)
    (hawake : t.cancelled = false) (hprompt : b.Prompt limit)
    (hpace : Pace b.intervals.poll mounted b.now t opens closes) :
    b.CommitsAgain id t.kind limit := by
  intro calls h b' hneeds hrun hcal hkept hanswers hwithin hscripts hquiet hlate hnothing
  have hrec := hpace.recovers calls fun f hf => hprompt id t f ht hf
  obtain ⟨t', ht', _, _, hrec'⟩ :=
    hrun.recovers hb ⟨hanswers, hwithin⟩ hscripts (hrun.isFall_eq_false hcal).1 hkept
    hnothing ⟨t, ht, hawake, hneeds, hrec⟩
  rw [hrun.settings_eq.1] at hrec'
  have hearly := hrec'.lt_of_awaits (hquiet t' (Board.task?_mem ht')).2.1
  omega

/-- Errors are fatal to no view while the messages about them expire within the calendar.  No
task falls and every request is answered; the views that are counted are those that arrived and
have not left.  A view that nobody gave up has its task and polls in each period, and once its
calls are answered it commits again.  A view that was given up has left once, and its slot is
gone, as soon as all is done at an instant.

The condition is exact.  A task falls, and a command is not answered, exactly if there is a
failure to report and its message does not expire within the calendar; the slot of a view whose
task fell stays for good. -/
theorem Run.views_survive_errors {s : Settings} {intervals : Intervals} {wall : Int}
    {firstToast : Uuid} {h : List Happening} {b : Board}
    (hrun : Run (Board.start s intervals wall firstToast) h b) :
    ((∀ x ∈ h, x.InCalendar (Timestamp.signedSeconds s.notifications.durationSecs)) →
      (∀ x ∈ h, x.isFall = false) ∧
      b.health.mounted + (Happening.departures h).length = (Happening.arrivals h).length ∧
      ∀ id kind mounted, .mounted id kind mounted ∈ h →
        (.dropped id ∉ h → ∃ t, b.task? id = some t ∧ t.cancelled = false ∧
          (b.Quiet → t.fetch.isSome = true ∨ ∃ n, (Happening.opens id h).getLast? = some n ∧
            mounted + (b.now - mounted) / intervals.poll * intervals.poll ≤ n) ∧
          ∀ limit, Happening.Scripted (·.Within limit) h → b.CommitsAgain id kind limit) ∧
        (.dropped id ∈ h → b.Quiet → b.store.get? id = none ∧
          (Happening.departures h).count id = 1)) ∧
    (b.notifier.Lasts b.wall → ∀ r, (b.respond r).IsGiven) ∧
    (∀ t m, b.performs t m = false ↔
      ¬ b.notifier.Lasts b.wall ∧ ∃ c e, .fail c e ∈ (b.turn t m).2.effects ∧
      e.code ≠ .unknown) ∧
    (∀ did command, (b.command did command).1 = .error .overflow ↔
      ¬ b.notifier.Lasts b.wall ∧ ∃ e, (b.sendCommand did command).1 = .error e ∧
      e.code ≠ .unknown) ∧
    ∀ id w, .fell id w ∈ h → b.task? id = none ∧ (b.store.get? id).isSome = true := by
  have hsteady := Board.steady_start s intervals wall firstToast
  have hcensus := Board.census_start s intervals wall firstToast
  have hhoused := Board.housed_start s intervals wall firstToast
  refine ⟨fun hcal => ?_, Board.isGiven_respond, fun t m => Board.performs_eq_false_iff,
    fun did command => Board.command_fst_eq_error_iff, fun id w hfell => ?_⟩
  · rw [← Board.lifetime_start s intervals wall firstToast] at hcal
    have hno := (hrun.isFall_eq_false hcal).1
    refine ⟨hno, ?_, fun id kind mounted hmounted =>
      ⟨fun hkept => ?_, fun hdropped hquiet => ?_⟩⟩
    · have hend := hrun.census hsteady.tidy hno hcensus
      have hlength := hend.all.length_eq
      rw [List.length_append, List.length_map] at hlength
      have hcount := hend.count
      omega
    · obtain ⟨t, ht, rfl, hawake⟩ := hrun.runs_of_mounted hsteady.tidy hno hmounted hkept
      have hpace := hrun.pace_of_mounted hsteady.tidy hmounted ht
      refine ⟨t, ht, hawake, fun hquiet => ?_, fun limit hscripts => ?_⟩
      · cases hfetch : t.fetch with
        | some f => exact .inl rfl
        | none =>
          exact .inr
            (hpace.exists_recent intervals.poll_pos (hquiet t (Board.task?_mem ht)) hfetch)
      · have hprompt : b.Prompt limit := by
          refine hrun.prompt hsteady.tidy ?_ hscripts fun id t f ht hf => nomatch ht
          intro c ms hdelay
          cases hdelay
        rw [← hrun.settings_eq.1] at hpace
        exact Board.commitsAgain (hrun.steady hsteady) ht hawake hprompt hpace
    · exact hrun.left_of_dropped hsteady.tidy hno hhoused hcensus hmounted hdropped hquiet
  · have hforsaken := hrun.forsaken_of_fell hsteady.tidy hsteady.sound hfell
    exact ⟨hforsaken.task, hforsaken.slot⟩

/-- The alarm cannot be reached when it is polled first; it answers again from then on, and the
next poll commits. -/
theorem Run.alarm_survives_error : ∃ (h h' : List Happening) (b b' : Board),
    Run (Board.start {} ⟨200, 1000, by decide, by decide⟩ 0 ⟨0⟩) h b ∧ .mounted 1 .alarm 0 ∈ h ∧
      .dropped 1 ∉ h ∧
      b.health.failed = 1 ∧ Happening.commits 1 h = [] ∧ Run b h' b' ∧ b'.now = 200 ∧
      (∃ t, b.task? 1 = some t ∧ t.cancelled = false) ∧ Happening.commits 1 h' ≠ [] := by
  let failing : Script := { failures := [(.alarm, ⟨.unavailable, "alarm is down"⟩)] }
  let answering : Script := { alarm := some default }
  let b₀ := Board.start {} ⟨200, 1000, by decide, by decide⟩ 0 ⟨0⟩
  let b₁ := ((b₀.attend (.script failing)).hold .alarm).2
  let b₂ := b₁.move 1 .poll
  let b₃ := b₂.move 1 .answers
  let b₄ := b₃.attend (.script answering)
  let b₅ := { b₄ with now := 200 }
  let b₆ := b₅.move 1 .poll
  let b₇ := b₆.move 1 .answers
  let h : List Happening := [.attended (.script failing) 0, .mounted 1 .alarm 0,
    b₁.moving 1 .poll, b₂.moving 1 .answers, .attended (.script answering) 0]
  let h' : List Happening := [.passed 200, b₅.moving 1 .poll, b₆.moving 1 .answers]
  have hopen : Step b₁ (b₁.moving 1 .poll) b₂ := .of_canMove (by decide +kernel)
  have hclose : Step b₂ (b₂.moving 1 .answers) b₃ := .of_canMove (by decide +kernel)
  have hrun : Run b₀ h b₄ :=
    .cons (.attend b₀ _) <| .cons (.hold _ .alarm) <| .cons hopen <| .cons hclose <|
      .single (.attend b₃ _)
  have hsleeps : b₄.SleepsUntil 200 := by decide +kernel
  have hreopen : Step b₅ (b₅.moving 1 .poll) b₆ := .of_canMove (by decide +kernel)
  have hreclose : Step b₆ (b₆.moving 1 .answers) b₇ := .of_canMove (by decide +kernel)
  have hrun' : Run b₄ h' b₇ :=
    .cons (.pass (by decide +kernel) hsleeps) <| .cons hreopen <| .single hreclose
  have hcal : ∀ x ∈ h ++ h', x.InCalendar
      (Timestamp.signedSeconds ({} : Settings).notifications.durationSecs) := by
    decide +kernel
  have hmounted : .mounted 1 .alarm 0 ∈ h := by simp [h]
  have hkept : .dropped 1 ∉ h := by simp [h, Board.moving]
  obtain ⟨_, _, hviews⟩ := (Run.views_survive_errors hrun).1 fun x hx =>
    hcal x (List.mem_append_left _ hx)
  obtain ⟨t, ht, hawake, _, hcommits⟩ := (hviews 1 .alarm 0 hmounted).1 hkept
  have hscripts : Happening.Scripted (·.Within 0) h := by
    intro s wall hs c ms hdelay
    simp only [h, Board.moving, List.mem_cons, List.not_mem_nil, or_false,
      reduceCtorEq, false_or, Happening.attended.injEq, Errand.script.injEq] at hs
    rcases hs with ⟨rfl, _⟩ | ⟨rfl, _⟩
    · cases hdelay
    · cases hdelay
  have hanswers : answering.Answers [.alarm] := by
    refine ⟨fun c hc => ?_, fun did state o hdid => by simp at hdid⟩
    cases List.mem_singleton.mp hc
    exact ⟨default, rfl⟩
  have hagain : Happening.commits 1 h' ≠ [] := by
    refine hcommits 0 hscripts [.alarm] h' b₇ (by simp [ViewKind.Needs]) hrun' ?_ ?_
      hanswers ?_ ?_ ?_ ?_
    · exact fun x hx => hcal x (List.mem_append_right _ hx)
    · simp [h', Board.moving]
    · exact fun c ms hdelay => nomatch hdelay
    · intro s wall hs
      simp [h', Board.moving] at hs
    · decide +kernel
    · decide +kernel
  exact ⟨h, h', b₄, b₇, hrun, hmounted, hkept, by decide +kernel, by decide +kernel, hrun', rfl,
    ⟨t, ht, hawake⟩, hagain⟩

/-- With messages that are shown for ten to the twelve seconds, an alarm that cannot be reached
once ends its view: there is no task any more, nothing is learned when the alarm answers again,
and once the view is given up its slot is still there and still counted. -/
theorem Run.alarm_lost_to_error :
    ∃ (s : Settings) (intervals : Intervals) (h h' : List Happening) (b b' : Board),
    Settings.ofText "notifications:\n  duration_secs: 1000000000000\n" = .ok s ∧
      s.intervals = .ok intervals ∧
      Run (Board.start s intervals 0 ⟨0⟩) h b ∧ .mounted 1 .alarm 0 ∈ h ∧
      .dropped 1 ∉ h ∧ b.Quiet ∧
      b.task? 1 = none ∧ b.script.outcome .alarm = .ok default ∧ Run b h' b' ∧
      .dropped 1 ∈ h' ∧ b'.Quiet ∧
      b'.now = 10000 ∧ Happening.commits 1 (h ++ h') = [] ∧ (b'.store.get? 1).isSome = true ∧
      b'.health.mounted = 1 := by
  let s : Settings := { notifications := { durationSecs := 1000000000000 } }
  let failing : Script := { failures := [(.alarm, ⟨.unavailable, "alarm is down"⟩)] }
  let answering : Script := { alarm := some default }
  let b₀ := Board.start s ⟨5000, 1000, by decide, by decide⟩ 0 ⟨0⟩
  let b₁ := ((b₀.attend (.script failing)).hold .alarm).2
  let b₂ := b₁.move 1 .poll
  let b₃ := b₂.move 1 .answers
  let b₄ := b₃.attend (.script answering)
  let b₅ := { b₄ with now := 10000 }
  let h : List Happening := [.attended (.script failing) 0, .mounted 1 .alarm 0,
    b₁.moving 1 .poll,
    .fell 1 b₂.moment, .attended (.script answering) b₃.wall]
  have hopen : Step b₁ (b₁.moving 1 .poll) b₂ := .of_canMove (by decide +kernel)
  have hfalls : (b₂.task? 1).any (fun t => !t.cancelled && !b₂.performs t .answers) = true := by
    decide +kernel
  obtain ⟨t, ht, hfalls⟩ := (Option.any_eq_true ..).mp hfalls
  simp only [Bool.and_eq_true, Bool.not_eq_true'] at hfalls
  have hfall : Step b₂ (.fell 1 b₂.moment) b₃ := .fall ht hfalls.1 trivial hfalls.2
  have hrun : Run b₀ h b₄ :=
    .cons (.attend b₀ _) <| .cons (.hold _ .alarm) <| .cons hopen <| .cons hfall <|
      .single (.attend b₃ _)
  have hsleeps : b₄.SleepsUntil 10000 := by decide +kernel
  have hrun' : Run b₄ [.passed 10000, .dropped 1] (b₅.release 1).2 :=
    .cons (.pass (by decide +kernel) hsleeps) <| .single (.release (by decide +kernel))
  have hgone : (b₄.task? 1).isNone = true := by decide +kernel
  exact ⟨s, _, h, _, b₄, _, by decide +kernel, rfl, hrun, by simp [h],
    by simp [h, Board.moving], by decide +kernel, Option.isNone_iff_eq_none.mp hgone, rfl,
    hrun', by simp, by decide +kernel, by decide +kernel, by decide +kernel, by decide +kernel,
    by decide +kernel⟩

end HouseBoard
