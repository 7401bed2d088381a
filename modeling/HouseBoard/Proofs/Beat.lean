/-
HouseBoard.Proofs.Beat — what the count of a slot counts.

The tick of a view goes off on the grid that begins at its mounting, and never late, however its
polls fare.  So the count of a slot is a number of grid points: those that have been passed
since the last state was learned.  A grid point at the very instant of a commit counts, since
the tick comes last at an instant; for this it matters that a task without anything left to do
stays so until time goes on (Section 2).
-/
import Mathlib.Data.Set.Card
import Mathlib.Order.Interval.Finset.Nat
import HouseBoard.Proofs.Schedule

namespace HouseBoard

/-! ## Section 1 — when states are learned -/

/-- The state that is kept by an effect. -/
def Effect.learned? : Effect → Option Snapshot
  | .commit s => some s
  | _ => none

theorem Effect.filterMap_learned?_of_isQuiet {es : List Effect}
    (h : ∀ e ∈ es, e.isQuiet = true) : es.filterMap learned? = [] := by
  rw [List.filterMap_eq_nil_iff]
  intro e he
  have hquiet := h e he
  cases e with
  | commit s => cases hquiet
  | _ => rfl

namespace Happening

/-- The states that a view learns at a happening, with the instant. -/
def learned (id : ViewId) : Happening → List (Nat × Snapshot)
  | .moved j _ w es _ => if j = id then (es.filterMap Effect.learned?).map fun s =>
    (w.now, s) else []
  | _ => []

/-- The states that a view learns in the course of a run, with their instants. -/
def commits (id : ViewId) (h : List Happening) : List (Nat × Snapshot) := h.flatMap (learned id)

/-- The instant at which a view last learned a state, or at which it was mounted if
it learned none. -/
def base (id : ViewId) (mounted : Nat) (h : List Happening) : Nat :=
  ((commits id h).getLast?.map (·.1)).getD mounted

variable {id : ViewId}

theorem commits_append (h h' : List Happening) :
    commits id (h ++ h') = commits id h ++ commits id h' :=
  List.flatMap_append

@[simp] theorem commits_singleton (x : Happening) : commits id [x] = x.learned id := by
  simp [commits]

theorem learned_of_other {x : Happening} (hx : x.isOf id = false) : x.learned id = [] := by
  simp only [isOf, beq_eq_false_iff_ne, ne_eq] at hx
  cases x with
  | moved j m w es ended => exact if_neg fun h => hx (congrArg some h)
  | _ => rfl

theorem commits_of_others {h : List Happening} (hh : ∀ x ∈ h, x.isOf id = false) :
    commits id h = [] :=
  List.flatMap_eq_nil_iff.mpr fun x hx => learned_of_other (hh x hx)

theorem learned_moved (m : Move) (w : Moment) (es : List Effect) (ended : Bool) :
    (Happening.moved id m w es ended).learned id = (es.filterMap Effect.learned?).map
      fun s => (w.now, s) :=
  if_pos rfl

theorem learned_of_isQuiet (m : Move) (w : Moment) {es : List Effect} (ended : Bool)
    (h : ∀ e ∈ es, e.isQuiet = true) : (Happening.moved id m w es ended).learned id = [] := by
  rw [learned_moved, Effect.filterMap_learned?_of_isQuiet h]
  rfl

theorem base_append_of_nil (mounted : Nat) (h : List Happening) {x : Happening}
    (hx : x.learned id = []) : base id mounted (h ++ [x]) = base id mounted h := by
  rw [base, commits_append, commits_singleton, hx, List.append_nil]
  rfl

theorem base_append_of_singleton (mounted : Nat) (h : List Happening) {x : Happening} {n : Nat}
    {s : Snapshot} (hx : x.learned id = [(n, s)]) : base id mounted (h ++ [x]) = n := by
  rw [base, commits_append, commits_singleton, hx, List.getLast?_concat]
  rfl

end Happening

/-! ## Section 2 — tasks that have nothing to do but tick -/

/-- An answer that is not due does not arrive. -/
theorem Pending.proceed_of_late {c : Call} {scene : Scene} {p : Pending c}
    (h : ∀ e ∈ p.timer?, scene.now < e.1) : p.proceed scene = pure p := by
  cases p with
  | answered o => rfl
  | waiting due stamp =>
    have hlate : scene.now < due := h (due, stamp) rfl
    exact if_neg (Nat.not_le_of_lt hlate)

theorem Pending.outcome?_of_timer? {c : Call} {p : Pending c} {e : Nat × Nat}
    (h : p.timer? = some e) : p.outcome? = none := by
  cases p with
  | answered o => cases h
  | waiting due stamp => rfl

namespace Fetch

/-- The one call of a fetch that sleeps is still awaited. -/
theorem late_of_sleepsUntil {f : Fetch} {c : Call} {p : Pending c} {n : Nat}
    (hf : f.timers = p.timer?.toList) (h : f.SleepsUntil n) :
    p.outcome? = none ∧ ∀ e ∈ p.timer?, n ≤ e.1 := by
  obtain ⟨hne, hlate⟩ := h
  rw [hf] at hne hlate
  cases htimer : p.timer? with
  | none =>
    rw [htimer] at hne
    exact absurd rfl hne
  | some e =>
    refine ⟨Pending.outcome?_of_timer? htimer, ?_⟩
    intro e' he'
    cases he'
    exact hlate e (by simp [htimer])

/-- A fetch that sleeps does not go on. -/
theorem proceed_of_sleepsUntil {f : Fetch} {scene : Scene} (h : f.SleepsUntil (scene.now + 1)) :
    f.proceed scene = pure (.underway f) := by
  cases f with
  | home known heaters alarm alerts ble =>
    obtain ⟨hne, hlate⟩ := h
    have hheaters := heaters.proceed_of_late fun e he => hlate e (mem_timers_home.mpr (.inl he))
    have halarm := alarm.proceed_of_late fun e he =>
      hlate e (mem_timers_home.mpr (.inr (.inl he)))
    have halerts := alerts.proceed_of_late fun e he =>
      hlate e (mem_timers_home.mpr (.inr (.inr (.inl he))))
    have hble := ble.proceed_of_late fun e he =>
      hlate e (mem_timers_home.mpr (.inr (.inr (.inr he))))
    simp only [proceed, hheaters, halarm, halerts, hble, pure_bind]
    split
    · rename_i _ _ _ _ hh ha hd hb
      -- a call that has a timer has no outcome
      obtain ⟨e, he⟩ := List.exists_mem_of_ne_nil _ hne
      rcases mem_timers_home.mp he with he | he | he | he
      · rw [Pending.outcome?_of_timer? he] at hh
        cases hh
      · rw [Pending.outcome?_of_timer? he] at ha
        cases ha
      · rw [Pending.outcome?_of_timer? he] at hd
        cases hd
      · rw [Pending.outcome?_of_timer? he] at hb
        cases hb
    · rfl
  | plain view pending =>
    obtain ⟨hnone, hlate⟩ := late_of_sleepsUntil rfl h
    simp only [proceed, pending.proceed_of_late hlate, pure_bind, hnone]
  | device did pending =>
    obtain ⟨hnone, hlate⟩ := late_of_sleepsUntil rfl h
    simp only [proceed, proceedDevice, pending.proceed_of_late hlate, pure_bind, hnone]
  | controller state owner pending =>
    obtain ⟨hnone, hlate⟩ := late_of_sleepsUntil rfl h
    simp only [proceed, proceedOwner, pending.proceed_of_late hlate, pure_bind, hnone]

end Fetch

namespace ViewTask

variable {t t' : ViewTask} {n : Nat}

theorem awaitsUntil_congr (hfetch : t'.fetch = t.fetch) (hpoll : t'.poll.due = t.poll.due) :
    t'.AwaitsUntil n ↔ t.AwaitsUntil n := by
  simp only [AwaitsUntil, hfetch, hpoll]

theorem proceed_of_awaitsUntil {scene : Scene} (h : t.AwaitsUntil (scene.now + 1)) :
    t.proceed scene = pure t := by
  cases hf : t.fetch with
  | none => simp only [proceed, hf]
  | some f =>
    have hsleeps : f.SleepsUntil (scene.now + 1) := by rwa [AwaitsUntil, hf] at h
    simp only [proceed, hf, Fetch.proceed_of_sleepsUntil hsleeps, pure_bind]
    rw [← hf]

theorem not_awaitsUntil_of_pollsAt (h : t.pollsAt n = true) : ¬ t.AwaitsUntil (n + 1) := by
  simp only [pollsAt, Bool.and_eq_true, Option.isNone_iff_eq_none, decide_eq_true_eq] at h
  rw [AwaitsUntil, h.1]
  exact Nat.not_le_of_lt (Nat.lt_succ_of_le h.2)

end ViewTask

theorem Board.turn_answers_of_awaitsUntil {b : Board} {t : ViewTask}
    (h : t.AwaitsUntil (b.now + 1)) :
    b.turn t .answers = (t, { nextStamp := b.nextStamp }) := by
  have hproceed : t.proceed (b.scene t.id) = pure t := ViewTask.proceed_of_awaitsUntil h
  rw [turn, ViewTask.move, hproceed]
  rfl

/-! ## Section 3 — the ticks of a task -/

/-- The tick of a view that was mounted at an instant has gone off some times, some of them
before the last state was learned; the others are counted. -/
structure Beats (period mounted last now : Nat) (t : ViewTask)
    (offset before gone : Nat) : Prop where
  due : t.tick.due = mounted + (gone + 1) * period
  inTime : now ≤ t.tick.due
  past : 1 ≤ gone → mounted + gone * period ≤ now
  /-- At the instant of a tick nothing is done after it. -/
  rests : 1 ≤ gone → mounted + gone * period = now → t.AwaitsUntil (now + 1)
  mounted_le : mounted ≤ last
  last_le : last ≤ now
  before_le : before ≤ gone
  before_iff : ∀ k, 1 ≤ k → (k ≤ before ↔ mounted + k * period < last)
  offset_eq : offset = addSeconds 0 (gone - before)

namespace Beats

variable {period mounted last now offset before gone : Nat} {t t' : ViewTask}

theorem of_mounted (hdue : t.tick.due = mounted + period) :
    Beats period mounted mounted mounted t 0 0 0 where
  due := by omega
  inTime := by omega
  past := fun h => absurd h (by decide)
  rests := fun h => absurd h (by decide)
  mounted_le := Nat.le_refl mounted
  last_le := Nat.le_refl mounted
  before_le := Nat.le_refl 0
  before_iff := by
    intro k hk
    omega
  offset_eq := rfl

/-- What matters of a task is when its tick is due, and that it stays at rest. -/
theorem congr (hp : Beats period mounted last now t offset before gone)
    (hdue : t'.tick.due = t.tick.due)
    (hrests : t.AwaitsUntil (now + 1) → t'.AwaitsUntil (now + 1)) :
    Beats period mounted last now t' offset before gone where
  due := hdue ▸ hp.due
  inTime := hdue ▸ hp.inTime
  past := hp.past
  rests := fun hgone hnow => hrests (hp.rests hgone hnow)
  mounted_le := hp.mounted_le
  last_le := hp.last_le
  before_le := hp.before_le
  before_iff := hp.before_iff
  offset_eq := hp.offset_eq

theorem pass (hp : Beats period mounted last now t offset before gone) {n : Nat} (hn : now < n)
    (hle : n ≤ t.tick.due) : Beats period mounted last n t offset before gone where
  due := hp.due
  inTime := hle
  past := fun hgone => Nat.le_trans (hp.past hgone) (Nat.le_of_lt hn)
  rests := by
    intro hgone hnow
    have hpast := hp.past hgone
    omega
  mounted_le := hp.mounted_le
  last_le := Nat.le_trans hp.last_le (Nat.le_of_lt hn)
  before_le := hp.before_le
  before_iff := hp.before_iff
  offset_eq := hp.offset_eq

theorem ticked (hp : Beats period mounted last now t offset before gone)
    (hdue : t.tick.due ≤ now) (hdue' : t'.tick.due = now + period)
    (hrests : t'.AwaitsUntil (now + 1)) :
    Beats period mounted last now t' (addSeconds offset 1) before (gone + 1) := by
  have hnow : now = mounted + (gone + 1) * period := by
    rw [← hp.due]
    exact Nat.le_antisymm hp.inTime hdue
  refine ⟨?_, ?_, ?_, ?_, hp.mounted_le, hp.last_le, ?_, hp.before_iff, ?_⟩
  · rw [hdue', hnow, Nat.add_mul (gone + 1) 1, Nat.one_mul, Nat.add_assoc]
  · omega
  · exact fun _ => Nat.le_of_eq hnow.symm
  · exact fun _ _ => hrests
  · exact Nat.le_succ_of_le hp.before_le
  · have hle := hp.before_le
    rw [hp.offset_eq, Nat.succ_sub hle]
    simp only [addSeconds]
    omega

/-- A state that is learned sets the count back: the ticks so far were before it, also if one
went off just then. -/
theorem rebased (hp : Beats period mounted last now t offset before gone)
    (hbusy : ¬ t.AwaitsUntil (now + 1)) (hdue : t'.tick.due = t.tick.due) :
    Beats period mounted now now t' 0 gone gone := by
  have hlt (hgone : 1 ≤ gone) : mounted + gone * period < now :=
    Nat.lt_of_le_of_ne (hp.past hgone) fun hnow => hbusy (hp.rests hgone hnow)
  have hmounted := Nat.le_trans hp.mounted_le hp.last_le
  refine ⟨hdue ▸ hp.due, hdue ▸ hp.inTime, hp.past, ?_, hmounted, Nat.le_refl now,
    Nat.le_refl gone, ?_, ?_⟩
  · intro hgone hnow
    exact absurd hnow (Nat.ne_of_lt (hlt hgone))
  · intro k hk
    constructor
    · intro hle
      have hmul := Nat.mul_le_mul_right period hle
      have hgone := hlt (Nat.le_trans hk hle)
      omega
    · intro hbefore
      refine Nat.le_of_not_lt fun hgt => ?_
      have hmul := Nat.mul_le_mul_right period hgt
      have hin := hp.inTime
      rw [hp.due] at hin
      rw [Nat.succ_eq_add_one] at hmul
      omega
  · rw [Nat.sub_self]
    rfl

/-- The last commit and the present lie each within one period of the grid points
that are counted. -/
theorem between (hp : Beats period mounted last now t offset before gone) :
    mounted + before * period ≤ last ∧ last ≤ mounted + (before + 1) * period ∧
    mounted + gone * period ≤ now := by
  refine ⟨?_, ?_, ?_⟩
  · rcases Nat.eq_zero_or_pos before with rfl | hpos
    · have hmounted := hp.mounted_le
      omega
    · exact Nat.le_of_lt ((hp.before_iff before hpos).mp (Nat.le_refl before))
  · exact Nat.le_of_not_lt fun h => absurd ((hp.before_iff (before + 1) (by omega)).mpr h)
      (by omega)
  · rcases Nat.eq_zero_or_pos gone with rfl | hpos
    · have hmounted := hp.mounted_le
      have hlast := hp.last_le
      omega
    · exact hp.past hpos

/-- The grid points that are counted are those since the last state was learned. -/
theorem mem_iff (hp : Beats period mounted last now t offset before gone)
    (hlt : now < t.tick.due) (k : Nat) :
    (1 ≤ k ∧ last ≤ mounted + k * period ∧ mounted + k * period ≤ now) ↔
    k ∈ Finset.Ioc before gone := by
  rw [Finset.mem_Ioc]
  rw [hp.due] at hlt
  constructor
  · rintro ⟨hk, hlast, hnow⟩
    refine ⟨Nat.lt_of_not_le fun hle => ?_, ?_⟩
    · exact absurd ((hp.before_iff k hk).mp hle) (Nat.not_lt_of_le hlast)
    · refine Nat.le_of_lt_succ (Nat.lt_of_not_le fun hge => ?_)
      have hmul := Nat.mul_le_mul_right period hge
      rw [Nat.succ_eq_add_one] at hmul
      omega
  · rintro ⟨hbefore, hgone⟩
    have hk : 1 ≤ k := Nat.lt_of_le_of_lt (Nat.zero_le _) hbefore
    refine ⟨hk, ?_, ?_⟩
    · exact Nat.le_of_not_lt fun h => absurd ((hp.before_iff k hk).mpr h)
        (Nat.not_le_of_lt hbefore)
    · have hmul := Nat.mul_le_mul_right period hgone
      have hpast := hp.past (Nat.le_trans hk hgone)
      omega

theorem ncard_eq (hp : Beats period mounted last now t offset before gone)
    (hlt : now < t.tick.due) :
    {k | 1 ≤ k ∧ last ≤ mounted + k * period ∧ mounted + k * period ≤ now}.ncard =
      gone - before := by
  have hset : {k | 1 ≤ k ∧ last ≤ mounted + k * period ∧ mounted + k * period ≤ now} =
      (Finset.Ioc before gone : Set Nat) := Set.ext (hp.mem_iff hlt)
  rw [hset, Set.ncard_coe_finset, Nat.card_Ioc]

end Beats

/-! ## Section 4 — steps and runs -/

/-- The count of a view is that of its ticks since an instant. -/
def Board.Counts (b : Board) (id : ViewId) (mounted last : Nat) : Prop :=
  ∀ t, b.task? id = some t → ∃ slot before gone, b.store.get? id = some slot ∧
    Beats b.intervals.tick mounted last b.now t slot.offset before gone

theorem Beats.move {b : Board} {t : ViewTask} {slot : Slot} {p : Poll} {m : Move}
    {mounted last before gone : Nat}
    (hp : Beats b.intervals.tick mounted last b.now t slot.offset before gone)
    (hagrees : ∀ f, t.fetch = some f → f.Agrees p t.kind) (hallows : t.Allows b.now m)
    {ended : Bool} {h : List Happening} (hlast : last = Happening.base t.id mounted h) :
    ∃ before gone, Beats b.intervals.tick mounted
      (Happening.base t.id mounted (h ++ [.moved t.id m b.moment (b.turn t m).2.effects ended]))
        b.now (b.turn t m).1
      ((b.turn t m).2.effects.foldl (Slot.take b.wall) slot).offset before gone := by
  have hturn := b.turn_cases t m hagrees
  generalize hes : (b.turn t m).2.effects = es at hturn ⊢
  generalize hend : (b.turn t m).1 = t' at hturn ⊢
  -- a move that learns nothing and does not tick keeps the count, if a task at rest stays so
  have hkept (hquiet : ∀ e ∈ es, e.isQuiet = true) (hdue : t'.tick.due = t.tick.due)
      (hrests : t.AwaitsUntil (b.now + 1) → t'.AwaitsUntil (b.now + 1)) :
      ∃ before gone, Beats b.intervals.tick mounted
        (Happening.base t.id mounted (h ++ [.moved t.id m b.moment es ended])) b.now t'
        (es.foldl (Slot.take b.wall) slot).offset before gone := by
    rw [Slot.foldl_take_of_isQuiet hquiet,
      Happening.base_append_of_nil mounted h
        (Happening.learned_of_isQuiet m b.moment ended hquiet), ← hlast]
    exact ⟨before, gone, hp.congr hdue hrests⟩
  cases m with
  | answers =>
    have hdue : t'.tick = t.tick := by
      rw [← hend]
      exact (b.turn_answers t).2.1
    have hstays : t.AwaitsUntil (b.now + 1) → t'.AwaitsUntil (b.now + 1) := by
      intro hrests
      rwa [← hend, Board.turn_answers_of_awaitsUntil hrests]
    cases hturn with
    | idle hm hfetch => exact hkept (by simp) (congrArg Timer.due hdue) hstays
    | underway hquiet hbefore hfetch hagrees hsleeps =>
      exact hkept hquiet (congrArg Timer.due hdue) hstays
    | @ended es₀ _ learned hquiet hbefore hfetch hlearned htaken =>
      cases learned with
      | none =>
        rw [Option.map_none, Option.toList_none, List.append_nil] at hes hkept ⊢
        exact hkept hquiet (congrArg Timer.due hdue) hstays
      | some s =>
        have hlearn :
          (Happening.moved t.id .answers b.moment (es₀ ++ [.commit s]) ended).learned t.id =
            [(b.now, s)] := by
          rw [Happening.learned_moved, List.filterMap_append,
            Effect.filterMap_learned?_of_isQuiet hquiet]
          rfl
        have hbusy : ¬ t.AwaitsUntil (b.now + 1) := by
          intro hrests
          have hnone := congrArg (fun r => r.2.effects)
            (Board.turn_answers_of_awaitsUntil hrests)
          rw [hes] at hnone
          simp at hnone
        simp only [Option.map_some, Option.toList_some]
        rw [Happening.base_append_of_singleton mounted h hlearn, List.foldl_append]
        exact ⟨gone, gone, hp.rebased hbusy (congrArg Timer.due hdue)⟩
  | poll =>
    have hdue : t'.tick = t.tick := by
      rw [← hend]
      exact (b.turn_poll t).2.1
    have hbusy : ¬ t.AwaitsUntil (b.now + 1) := ViewTask.not_awaitsUntil_of_pollsAt hallows
    obtain ⟨hquiet, _⟩ := hturn.of_poll
    exact hkept hquiet (congrArg Timer.due hdue) fun hrests => absurd hrests hbusy
  | tick =>
    obtain ⟨hpoll, hfetch, htick⟩ := b.turn_tick t
    rw [hend] at hpoll hfetch htick
    have hstays : t'.AwaitsUntil (b.now + 1) :=
      (ViewTask.awaitsUntil_congr hfetch (congrArg Timer.due hpoll)).mpr hallows
    rcases b.turn_meets (m := .tick) (t.runTick_ensures b.intervals (b.scene t.id)) with
      ⟨hdue, heffects, _⟩ | ⟨hlate, heffects, _⟩
    · rw [hes] at heffects
      subst heffects
      have hgone : t.tick.due ≤ b.now := hdue
      have hnow : t.tick.due = b.now := Nat.le_antisymm hgone hp.inTime
      rw [if_pos hgone] at htick
      have hnext : t'.tick.due = b.now + b.intervals.tick := by
        rw [htick, Timer.next_due_of_eq hnow]
      rw [Happening.base_append_of_nil mounted h
        (by rw [Happening.learned_moved]; rfl), ← hlast]
      exact ⟨before, gone + 1, hp.ticked hgone hnext hstays⟩
    · rw [hes] at heffects
      subst heffects
      have hahead : b.now < t.tick.due := hlate
      rw [if_neg (Nat.not_le_of_lt hahead)] at htick
      exact hkept (by simp) (congrArg Timer.due htick) fun _ => hstays
  | rest =>
    obtain ⟨hpoll, hdue, hfetch, _⟩ := b.turn_rest t
    rw [hend] at hpoll hdue hfetch
    have hnone := b.turn_rest_effects t
    rw [hes] at hnone
    subst hnone
    exact hkept (by simp) hdue (ViewTask.awaitsUntil_congr hfetch hpoll).mpr

theorem Step.counts {b b' : Board} {x : Happening} {id : ViewId} {mounted : Nat}
    {h : List Happening} (hstep : Step b x b') (hb : b.Steady) (hid : id < b.nextId)
    (hcounts : b.Counts id mounted (Happening.base id mounted h)) :
    b'.Counts id mounted (Happening.base id mounted (h ++ [x])) := by
  intro t' ht'
  rw [hstep.settings_eq.1]
  cases hstep.origin hb.tidy ht' with
  | other hx ht hslot =>
    obtain ⟨slot, before, gone, hget, hp⟩ := hcounts t' ht
    rw [Happening.base_append_of_nil mounted h (Happening.learned_of_other hx)]
    refine ⟨slot, before, gone, hslot.trans hget, ?_⟩
    rcases hstep.now_cases with hnow | ⟨n, _, hn, hsleeps, rfl⟩
    · rw [hnow]
      exact hp
    · exact hp.pass hn (hsleeps t' (Board.task?_mem ht')).2.2
  | mounted hnext => exact absurd hnext (Nat.ne_of_lt hid)
  | @dropped t ht hslot =>
    obtain ⟨slot, before, gone, hget, hp⟩ := hcounts t ht
    rw [Happening.base_append_of_nil mounted h rfl, hstep.now_eq (by simp)]
    exact ⟨slot, before, gone, hslot.trans hget, hp.congr rfl fun hrests => hrests⟩
  | @moved t m ht hallows hslot =>
    obtain ⟨slot, before, gone, hget, hp⟩ := hcounts t ht
    obtain ⟨_, hget', hs⟩ := hb.sound id t ht
    obtain ⟨p, hagrees, _⟩ := hs.exists_poll
    have hown := Board.task?_id ht
    subst hown
    obtain ⟨before', gone', hp'⟩ := hp.move hagrees hallows rfl
    rw [hstep.now_eq (by simp), hslot, hget]
    exact ⟨_, before', gone', rfl, hp'⟩

namespace Run

variable {b b' : Board} {h : List Happening} {id : ViewId} {mounted : Nat}

theorem counts (hrun : Run b h b') (hb : b.Steady) (hid : id < b.nextId)
    (hcounts : b.Counts id mounted mounted) :
    b'.Counts id mounted (Happening.base id mounted h) := by
  induction hrun with
  | refl => exact hcounts
  | step hrun₁ hstep ih =>
    exact hstep.counts (hrun₁.steady hb) (Nat.lt_of_lt_of_le hid hrun₁.nextId_le) ih

/-- A view that was mounted in the course of a run counts its ticks since it last
learned a state. -/
theorem counts_of_mounted {kind : ViewKind} (hrun : Run b h b') (hb : b.Steady)
    (hmounted : .mounted id kind mounted ∈ h) :
    b'.Counts id mounted (Happening.base id mounted h) := by
  obtain ⟨h₁, h₂, b₂, rfl, hothers, hrun₁, hnew, hrun₂⟩ := hrun.exists_mounting hb.tidy hmounted
  have hfirst : b₂.Counts id mounted mounted := by
    intro t ht
    obtain ⟨stamp, htask⟩ := hnew.task
    rw [htask] at ht
    cases ht
    refine ⟨_, 0, 0, hnew.slot, ?_⟩
    rw [hnew.now_eq]
    exact .of_mounted rfl
  have hnone : Happening.commits id h₁ = [] := Happening.commits_of_others hothers
  have hbase : Happening.base id mounted (h₁ ++ .mounted id kind mounted :: h₂) =
      Happening.base id mounted h₂ := by
    rw [Happening.base, Happening.commits_append, hnone]
    rfl
  rw [hbase]
  exact hrun₂.counts (hrun₁.steady hb) hnew.lt hfirst

end Run

/-! ## Section 5 — the count is exact -/

/-- When all is done at an instant, the count of a view is the number of beats, from the first
one after its mounting, that fall between the last commit (or the mounting, if there was none)
and the present; both ends belong to it, and it stops at the largest number that it can hold.
Nothing else that polls do changes it. -/
theorem Run.offset_counts_beats {s : Settings} {intervals : Intervals} {wall : Int}
    {firstToast : Uuid} {h : List Happening} {b : Board} {id : ViewId} {kind : ViewKind}
    {mounted : Nat} {t : ViewTask} (hrun : Run (Board.start s intervals wall firstToast) h b)
    (hmounted : .mounted id kind mounted ∈ h) (ht : b.task? id = some t) (hquiet : b.Quiet) :
    ∃ slot, b.store.get? id = some slot ∧
      slot.offset =
        min {k | 1 ≤ k ∧ Happening.base id mounted h ≤ mounted + k * intervals.tick ∧
        mounted + k * intervals.tick ≤ b.now}.ncard maxSeconds := by
  have hintervals : b.intervals = intervals := hrun.settings_eq.1
  obtain ⟨slot, before, gone, hslot, hp⟩ :=
    hrun.counts_of_mounted (Board.steady_start s intervals wall firstToast) hmounted t ht
  have hahead : b.now < t.tick.due := (hquiet t (Board.task?_mem ht)).2.2
  refine ⟨slot, hslot, ?_⟩
  rw [hintervals] at hp
  rw [hp.ncard_eq hahead, hp.offset_eq, addSeconds, Nat.zero_add]

/-- An alarm answers at the instant of the third tick, which is the only one that
counts then. -/
theorem Run.offset_counts_third_beat :
    ∃ (h : List Happening) (b : Board) (t : ViewTask) (slot : Slot),
    Run (Board.start {} ⟨200, 50, by decide, by decide⟩ 0 ⟨0⟩) h b ∧ .mounted 1 .alarm 0 ∈ h ∧
      b.task? 1 = some t ∧ b.Quiet ∧ b.now = 150 ∧ Happening.base 1 0 h = 150 ∧
      b.store.get? 1 = some slot ∧
      slot.offset = min
        {k | 1 ≤ k ∧ Happening.base 1 0 h ≤ 0 + k * 50 ∧ 0 + k * 50 ≤ b.now}.ncard maxSeconds ∧
      slot.offset = 1 := by
  let script : Script := { delays := [(.alarm, 150)], alarm := some default }
  let b₀ := Board.start {} ⟨200, 50, by decide, by decide⟩ 0 ⟨0⟩
  let b₁ := ((b₀.attend (.script script)).hold .alarm).2
  let b₂ := { b₁.move 1 .poll with now := 50 }
  let b₃ := { b₂.move 1 .tick with now := 100 }
  let b₄ := { b₃.move 1 .tick with now := 150 }
  let b₅ := b₄.move 1 .answers
  let h : List Happening := [.attended (.script script) 0, .mounted 1 .alarm 0,
    b₁.moving 1 .poll, .passed 50, b₂.moving 1 .tick, .passed 100, b₃.moving 1 .tick,
    .passed 150, b₄.moving 1 .answers, b₅.moving 1 .tick]
  have hopen : Step b₁ (b₁.moving 1 .poll) (b₁.move 1 .poll) := .of_canMove (by decide +kernel)
  have hsleeps₁ : (b₁.move 1 .poll).SleepsUntil 50 := by decide +kernel
  have htick₁ : Step b₂ (b₂.moving 1 .tick) (b₂.move 1 .tick) := .of_canMove (by decide +kernel)
  have hsleeps₂ : (b₂.move 1 .tick).SleepsUntil 100 := by decide +kernel
  have htick₂ : Step b₃ (b₃.moving 1 .tick) (b₃.move 1 .tick) := .of_canMove (by decide +kernel)
  have hsleeps₃ : (b₃.move 1 .tick).SleepsUntil 150 := by decide +kernel
  have hclose : Step b₄ (b₄.moving 1 .answers) b₅ := .of_canMove (by decide +kernel)
  have htick₃ : Step b₅ (b₅.moving 1 .tick) (b₅.move 1 .tick) := .of_canMove (by decide +kernel)
  have hrun : Run b₀ h (b₅.move 1 .tick) :=
    .cons (.attend b₀ _) <| .cons (.hold _ .alarm) <| .cons hopen <|
      .cons (.pass (by decide +kernel) hsleeps₁) <|
      .cons htick₁ <| .cons (.pass (by decide +kernel) hsleeps₂) <| .cons htick₂ <|
      .cons (.pass (by decide +kernel) hsleeps₃) <| .cons hclose <| .single htick₃
  have hmounted : .mounted 1 .alarm 0 ∈ h := by simp [h]
  have hquiet : (b₅.move 1 .tick).Quiet := by decide +kernel
  have hsome : ((b₅.move 1 .tick).task? 1).isSome = true := by decide +kernel
  have hone : ((b₅.move 1 .tick).store.get? 1).map (·.offset) = some 1 := by decide +kernel
  obtain ⟨t, ht⟩ := Option.isSome_iff_exists.mp hsome
  obtain ⟨slot, hslot, hoffset⟩ := Run.offset_counts_beats hrun hmounted ht hquiet
  rw [hslot] at hone
  exact ⟨h, _, t, slot, hrun, hmounted, ht, hquiet, by decide +kernel, by decide +kernel,
    hslot, hoffset, Option.some.inj hone⟩

end HouseBoard
