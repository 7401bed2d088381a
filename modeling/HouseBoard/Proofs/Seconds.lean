/-
HouseBoard.Proofs.Seconds — whether the count of a slot is one of seconds.

What is shown of a device adds the count of its slot to an age in seconds, but what is counted
are ticks, and how often a view ticks can be set.  The count goes with the time since the last
commit up to one period of the ticks; so it is a number of seconds up to one exactly if the view
ticks once a second.  For every other setting there is a run in which it is not (Sections 2 and
3): a view of the alarm, whose next fetch takes long, so that nothing but ticks is left to it.
-/
import HouseBoard.Proofs.Beat

namespace HouseBoard

/-! ## Section 1 — the count and the time since -/

/-- Over the time since the last state was learned, the ticks that are counted are
right up to one. -/
theorem Beats.near {period mounted last now offset before gone : Nat} {t : ViewTask}
    (hp : Beats period mounted last now t offset before gone) (hlt : now < t.tick.due) :
    (gone - before) * period ≤ now - last + period ∧
    now - last < (gone - before + 1) * period := by
  have hle := Nat.mul_le_mul_right period hp.before_le
  obtain ⟨hsince, hafter, hpast⟩ := hp.between
  have hlast := hp.last_le
  rw [Nat.succ_mul] at hafter
  rw [hp.due, Nat.succ_mul] at hlt
  rw [Nat.succ_mul, Nat.sub_mul]
  omega

/-- A view shows a count when all is done at an instant, some milliseconds after it last
learned a state. -/
inductive Settings.Shows (s : Settings) (elapsed offset : Nat) : Prop where
  | intro {intervals : Intervals} {wall : Int} {firstToast : Uuid} {h : List Happening}
      {b : Board} {id : ViewId} {kind : ViewKind} {mounted last : Nat} {t : ViewTask}
      {snapshot : Snapshot} {slot : Slot} (hset : s.intervals = .ok intervals)
      (hrun : Run (Board.start s intervals wall firstToast) h b)
      (hmounted : .mounted id kind mounted ∈ h) (ht : b.task? id = some t)
      (hlast : (Happening.commits id h).getLast? = some (last, snapshot))
      (hnow : b.now = last + elapsed) (hquiet : b.Quiet) (hslot : b.store.get? id = some slot)
      (hoffset : slot.offset = offset)

theorem Settings.intervals_of_fault? {s : Settings} (hs : s.fault? = none) :
    ∃ intervals, s.intervals = .ok intervals := by
  have hpos : 0 < s.polling.pollMs ∧ 0 < s.polling.tickMs := by
    unfold fault? at hs
    split at hs
    · cases hs
    · split at hs
      · cases hs
      · split at hs
        · cases hs
        · omega
  exact ⟨⟨s.polling.pollMs, s.polling.tickMs, hpos.1, hpos.2⟩, by
    simp [intervals, Intervals.of?, hpos]⟩

theorem Settings.of_intervals {s : Settings} {i : Intervals} (h : s.intervals = .ok i) :
    i.poll = s.polling.pollMs ∧ i.tick = s.polling.tickMs := by
  unfold intervals Intervals.of? at h
  split at h
  · rename_i i' hi
    split at hi
    · cases hi
      cases h
      exact ⟨rfl, rfl⟩
    · cases hi
  · cases h

theorem Settings.Shows.near {s : Settings} {elapsed offset : Nat} (h : s.Shows elapsed offset) :
    ∃ n, offset = min n maxSeconds ∧ n * s.polling.tickMs ≤ elapsed + s.polling.tickMs ∧
      elapsed < (n + 1) * s.polling.tickMs := by
  obtain @⟨intervals, wall, firstToast, h, b, id, kind, mounted, last, t, snapshot, slot, hset,
    hrun, hmounted, ht, hlast, hnow, hquiet, hslot, hoffset⟩ := h
  obtain ⟨slot', before, gone, hslot', hp⟩ :=
    hrun.counts_of_mounted (Board.steady_start s intervals wall firstToast) hmounted t ht
  have hbase : Happening.base id mounted h = last := by
    rw [Happening.base, hlast]
    rfl
  rw [hslot] at hslot'
  cases hslot'
  rw [hbase, hrun.settings_eq.1] at hp
  obtain ⟨hless, hmore⟩ := hp.near (hquiet t (Board.task?_mem ht)).2.2
  rw [hnow, Nat.add_sub_cancel_left] at hless hmore
  rw [← (of_intervals hset).2]
  refine ⟨gone - before, ?_, hless, hmore⟩
  rw [← hoffset, hp.offset_eq, addSeconds, Nat.zero_add]

/-! ## Section 2 — an alarm that is slow, and the only view -/

/-- An alarm that takes some time to answer. -/
def Script.slowAlarm (ms : Nat) : Script := { alarm := some default, delays := [(.alarm, ms)] }

namespace Board

/-- A view of the alarm is the only one that there is. -/
structure Alone (b : Board) (t : ViewTask) : Prop where
  tasks : b.tasks = [t]
  kind : t.kind = .alarm
  awake : t.cancelled = false
  inTime : b.now ≤ t.tick.due

/-- From a board with one view a run leads to another one, on which the view has
learned some states. -/
structure Comes (b : Board) (t : ViewTask) (learned : List (Nat × Snapshot)) (b' : Board)
    (t' : ViewTask) : Prop where
  run : ∃ h, Run b h b' ∧ Happening.commits t.id h = learned
  alone : b'.Alone t'
  same : t'.id = t.id

variable {b b' b'' : Board} {t t' t'' : ViewTask} {learned learned' : List (Nat × Snapshot)}

theorem Comes.trans (h : b.Comes t learned b' t') (h' : b'.Comes t' learned' b'' t'') :
    b.Comes t (learned ++ learned') b'' t'' where
  run := by
    obtain ⟨trace, hrun, hlearned⟩ := h.run
    obtain ⟨trace', hrun', hlearned'⟩ := h'.run
    rw [h.same] at hlearned'
    exact ⟨trace ++ trace', hrun.append
      hrun', by rw [Happening.commits_append, hlearned, hlearned']⟩
  alone := h'.alone
  same := h'.same.trans h.same

namespace Alone

variable {f : Fetch} {m : Move} {n ms : Nat}

theorem move (hb : b.Alone t) (hallows : t.Allows b.now m)
    (hes : ∀ c e, .fail c e ∉ (b.turn t m).2.effects) :
    ∃ b', b.Comes t (((b.turn t m).2.effects.filterMap Effect.learned?).map fun s => (b.now, s))
      b' (b.turn t m).1 ∧
      b'.now = b.now ∧ b'.script = b.script := by
  have ht : b.task? t.id = some t := by simp [task?, hb.tasks]
  have hperforms : b.performs t m = true := by
    rw [performs, ← Bool.not_eq_false, performAll_fst_eq_false_iff]
    rintro ⟨_, c, e, he, _⟩
    exact hes c e he
  have hstep := Step.move ht hb.awake hallows hperforms
  have hmove := move_of_performs ht hperforms
  have hnow : (b.move t.id m).now = b.now := by rw [hmove]; rfl
  refine ⟨b.move t.id m, ⟨⟨_, .single hstep, ?_⟩, ⟨?_, ?_, ?_, ?_⟩, b.turn_id t m⟩,
    hnow, by rw [hmove]; rfl⟩
  · rw [Happening.commits_singleton, Happening.learned_moved]
    rfl
  · rw [hmove]
    simp [withTask, recorded, withBooks, stamped, hb.tasks]
  · exact (b.turn_kind t m).trans hb.kind
  · exact (b.turn_cancelled t m).trans hb.awake
  · rw [hnow]
    exact le_turn_due hb.inTime m

theorem poll (hb : b.Alone t) (hscript : b.script = .slowAlarm ms)
    (hpolls : t.pollsAt b.now = true) :
    ∃ b' t' stamp, b.Comes t [] b' t' ∧ b'.now = b.now ∧ b'.script = b.script ∧
      t'.poll = t.poll.next b.intervals.poll b.now ∧
      t'.fetch = some (.plain .alarm (.waiting (b.now + ms) stamp)) := by
  have hturn : (b.turn t .poll).2.effects = [.start .alarm] ∧
      (b.turn t .poll).1.fetch = some (.plain .alarm (.waiting (b.now + ms) b.nextStamp)) := by
    obtain ⟨id, kind, poll, tick, fetch, cancelled⟩ := t
    obtain rfl : kind = .alarm := hb.kind
    simp only [turn, scene, hscript]
    exact ⟨rfl, rfl⟩
  obtain ⟨b', hcomes, hnow, hscript'⟩ := hb.move (m := .poll) hpolls (by simp [hturn.1])
  rw [hturn.1] at hcomes
  exact ⟨b', _, b.nextStamp, hcomes, hnow, hscript', (b.turn_poll t).1, hturn.2⟩

theorem answers (hb : b.Alone t) (hscript : b.script = .slowAlarm ms) {due stamp : Nat}
    (hfetch : t.fetch = some (.plain .alarm (.waiting due stamp))) (hdue : due ≤ b.now) :
    ∃ b' t', b.Comes t [(b.now, .alarm default)] b' t' ∧ b'.now = b.now ∧ b'.script = b.script ∧
      t'.poll = t.poll ∧
      t'.fetch = none := by
  have hturn : (b.turn t .answers).2.effects =
    [.complete .alarm, .succeed .alarm, .commit (.alarm default)] ∧
      (b.turn t .answers).1.fetch = none := by
    obtain ⟨id, kind, poll, tick, fetch, cancelled⟩ := t
    subst hfetch
    simp only [turn, ViewTask.move, ViewTask.proceed, Fetch.proceed, Pending.proceed, scene,
      hscript, if_pos hdue]
    exact ⟨rfl, rfl⟩
  obtain ⟨b', hcomes, hnow, hscript'⟩ := hb.move (m := .answers) trivial (by simp [hturn.1])
  rw [hturn.1] at hcomes
  exact ⟨b', _, hcomes, hnow, hscript', (b.turn_answers t).1, hturn.2⟩

theorem tick (hb : b.Alone t) (hrests : t.AwaitsUntil (b.now + 1)) :
    ∃ b' t', b.Comes t [] b' t' ∧ b'.now = b.now ∧ b'.script = b.script ∧ t'.poll = t.poll ∧
      t'.fetch = t.fetch ∧
      b.now < t'.tick.due := by
  have hes := b.turn_tick_effects t
  obtain ⟨b', hcomes, hnow, hscript⟩ :=
    hb.move (m := .tick) hrests (by rcases hes with h | h <;> simp [h])
  obtain ⟨hpoll, hfetch, _⟩ := b.turn_tick t
  have hnone : (b.turn t .tick).2.effects.filterMap Effect.learned? = [] := by
    rcases hes with h | h <;> rw [h] <;> rfl
  rw [hnone] at hcomes
  exact ⟨b', _, hcomes, hnow, hscript, hpoll, hfetch, le_turn_tick_due hb.inTime⟩

/-- Time goes on to an instant that comes before the answer and not after the next tick. -/
theorem pass (hb : b.Alone t) (hfetch : t.fetch = some f) (hsleeps : f.SleepsUntil n)
    (hnow : b.now ≤ n) (hdue : n ≤ t.tick.due) :
    ∃ b', b.Comes t [] b' t ∧ b'.now = n ∧ b'.script = b.script := by
  rcases Nat.eq_or_lt_of_le hnow with heq | hlt
  · exact ⟨b, ⟨⟨[], .refl b, rfl⟩, hb, rfl⟩, heq, rfl⟩
  · have hall : b.SleepsUntil n := by
      intro u hu
      rw [hb.tasks, List.mem_singleton] at hu
      subst hu
      refine ⟨hb.awake, ?_, hdue⟩
      rwa [ViewTask.AwaitsUntil, hfetch]
    have hrun : ∃ h, Run b h { b with now := n } ∧ Happening.commits t.id h = [] :=
      ⟨_, .single (.pass hlt hall), rfl⟩
    exact ⟨{ b with now := n }, ⟨hrun, ⟨hb.tasks, hb.kind, hb.awake, hdue⟩, rfl⟩, rfl, rfl⟩

/-- Time goes on to an instant that comes before the answer, and nothing but ticks happens
in the meantime. -/
theorem coast (hb : b.Alone t) (hfetch : t.fetch = some f) (hsleeps : f.SleepsUntil n)
    (hnow : b.now ≤ n) :
    ∃ b' t', b.Comes t [] b' t' ∧ b'.now = n ∧ b'.script = b.script ∧ t'.poll = t.poll ∧
    t'.fetch = t.fetch := by
  -- by the time that is left after the next tick
  induction hleft : n - t.tick.due using Nat.strongRecOn generalizing b t with
  | _ left ih =>
    rcases Nat.lt_or_ge t.tick.due n with hearly | hlate
    · have hbefore : f.SleepsUntil t.tick.due :=
        ⟨hsleeps.1, fun e he => Nat.le_trans (Nat.le_of_lt hearly) (hsleeps.2 e he)⟩
      obtain ⟨b₁, hcomes₁, hnow₁, hscript₁⟩ := hb.pass hfetch hbefore hb.inTime (Nat.le_refl _)
      have hrests : t.AwaitsUntil (b₁.now + 1) := by
        rw [ViewTask.AwaitsUntil, hfetch, hnow₁]
        exact ⟨hsleeps.1, fun e he => Nat.le_trans hearly (hsleeps.2 e he)⟩
      obtain ⟨b₂, t₂, hcomes₂, hnow₂, hscript₂, hpoll₂, hfetch₂, hlt⟩ :=
        hcomes₁.alone.tick hrests
      obtain ⟨b₃, t₃, hcomes₃, hnow₃, hscript₃, hpoll₃, hfetch₃⟩ :=
        ih (n - t₂.tick.due) (by omega) hcomes₂.alone (hfetch₂.trans hfetch) (by omega) rfl
      refine ⟨b₃, t₃, (hcomes₁.trans hcomes₂).trans hcomes₃, hnow₃, ?_, hpoll₃.trans hpoll₂,
        hfetch₃.trans hfetch₂⟩
      rw [hscript₃, hscript₂, hscript₁]
    · obtain ⟨b', hcomes, hnow', hscript⟩ := hb.pass hfetch hsleeps hnow hlate
      exact ⟨b', t, hcomes, hnow', hscript, rfl, rfl⟩

end Alone

/-- A view of a slow alarm learns its state at each instant by which the next poll is due, and
then nothing for as long as one likes. -/
theorem exists_commit (s : Settings) {intervals : Intervals} {last : Nat}
    (hlast : intervals.poll ≤ last) (elapsed : Nat) :
    ∃ h b t, Run (start s intervals 0 ⟨0⟩) h b ∧ .mounted 1 .alarm 0 ∈ h ∧
      Happening.commits 1 h = [(last, .alarm default)] ∧ b.task? 1 = some t ∧
      b.now = last + elapsed ∧ b.Quiet := by
  let b₀ := start s intervals 0 ⟨0⟩
  let b₁ := ((b₀.attend (.script (.slowAlarm last))).hold .alarm).2
  let t₁ : ViewTask :=
    { id := 1, kind := .alarm, poll := ⟨0, some 0⟩, tick := ⟨0 + intervals.tick, none⟩ }
  have hrun₁ : Run b₀ [.attended (.script (.slowAlarm last)) 0, .mounted 1 .alarm 0] b₁ :=
    .cons (.attend b₀ _) <| .single (.hold _ .alarm)
  have halone₁ : b₁.Alone t₁ := ⟨rfl, rfl, rfl, Nat.zero_le _⟩
  -- the first poll starts, and the alarm is silent until the instant
  have hscript₁ : b₁.script = .slowAlarm last := rfl
  obtain ⟨b₂, t₂, stamp₂, hcomes₂, hnow₂, _, hpoll₂, hfetch₂⟩ := halone₁.poll hscript₁ rfl
  have hstart : b₁.now = 0 := rfl
  have hdue₂ : t₂.poll.due = intervals.poll := by
    have hnext : (t₁.poll.next b₁.intervals.poll b₁.now).due = b₁.now + b₁.intervals.poll :=
      Timer.next_due_of_eq rfl
    rw [hpoll₂, hnext, hstart]
    exact Nat.zero_add intervals.poll
  have hwaits₂ : (Fetch.plain .alarm (.waiting (b₁.now + last) stamp₂)).SleepsUntil last := by
    simp [Fetch.SleepsUntil, Fetch.timers, Pending.timer?, hstart]
  obtain ⟨b₃, t₃, hcomes₃, hnow₃, _, hpoll₃, hfetch₃⟩ :=
    hcomes₂.alone.coast hfetch₂ hwaits₂ (by omega)
  -- then the answer comes, and the next poll starts at once
  let b₄ := b₃.attend (.script (.slowAlarm (elapsed + 1)))
  have hattend : b₃.Comes t₃ [] b₄ t₃ := by
    have halone₃ := hcomes₃.alone
    exact ⟨⟨_, .single (.attend b₃ _), rfl⟩,
      ⟨halone₃.tasks, halone₃.kind, halone₃.awake, halone₃.inTime⟩, rfl⟩
  have hnow₄ : b₄.now = last := hnow₃
  obtain ⟨b₅, t₅, hcomes₅, hnow₅, hscript₅, hpoll₅, hfetch₅⟩ :=
    hattend.alone.answers rfl (hfetch₃.trans hfetch₂) (by omega)
  have hpolls₅ : t₅.pollsAt b₅.now = true := by
    simp [ViewTask.pollsAt, hfetch₅, hpoll₅, hpoll₃, hdue₂, hnow₅, hnow₄, hlast]
  obtain ⟨b₆, t₆, stamp₆, hcomes₆, hnow₆, _, _, hfetch₆⟩ := hcomes₅.alone.poll hscript₅ hpolls₅
  -- and from then on there are nothing but ticks
  have hwaits₆ (n : Nat) (hn : n ≤ b₅.now + (elapsed + 1)) :
      (Fetch.plain .alarm (.waiting (b₅.now + (elapsed + 1)) stamp₆)).SleepsUntil n := by
    simpa [Fetch.SleepsUntil, Fetch.timers, Pending.timer?] using hn
  obtain ⟨b₇, t₇, hcomes₇, hnow₇, _, _, hfetch₇⟩ :=
    hcomes₆.alone.coast hfetch₆ (hwaits₆ (last + elapsed) (by omega)) (by omega)
  have hrests : t₇.AwaitsUntil (b₇.now + 1) := by
    rw [ViewTask.AwaitsUntil, hfetch₇, hfetch₆]
    exact hwaits₆ _ (by omega)
  obtain ⟨b₈, t₈, hcomes₈, hnow₈, _, hpoll₈, hfetch₈, hahead⟩ := hcomes₇.alone.tick hrests
  have hcomes :=
    (((((hcomes₂.trans hcomes₃).trans hattend).trans hcomes₅).trans hcomes₆).trans
      hcomes₇).trans hcomes₈
  obtain ⟨h, hrun, hlearned⟩ := hcomes.run
  have halone := hcomes.alone
  refine ⟨_, b₈, t₈, hrun₁.append hrun, by simp, ?_, ?_, by omega, ?_⟩
  · rw [Happening.commits_append, hlearned, hnow₄]
    rfl
  · have hid : t₈.id = 1 := hcomes.same
    simp [task?, halone.tasks, hid]
  · intro t ht
    rw [halone.tasks, List.mem_singleton] at ht
    subst ht
    refine ⟨halone.awake, ?_, by omega⟩
    rw [hnow₈]
    exact (ViewTask.awaitsUntil_congr hfetch₈ (congrArg Timer.due hpoll₈)).mpr hrests

end Board

/-! ## Section 3 — settings and seconds -/

/-- From the instant by which the second poll of a view is due, the view can show its ticks at
every time since a commit. -/
theorem Settings.exists_shows {s : Settings} (hs : s.fault? = none) {last : Nat}
    (hlast : s.polling.pollMs ≤ last) (elapsed : Nat) :
    ∃ t offset before gone, s.Shows elapsed offset ∧ last + elapsed < t.tick.due ∧
      Beats s.polling.tickMs 0 last (last + elapsed) t offset before gone := by
  obtain ⟨intervals, hset⟩ := intervals_of_fault? hs
  obtain ⟨hpollMs, htickMs⟩ := of_intervals hset
  rw [← hpollMs] at hlast
  obtain ⟨h, b, t, hrun, hmounted, hcommits, ht, hnow, hquiet⟩ :=
    Board.exists_commit s hlast elapsed
  obtain ⟨slot, before, gone, hslot, hp⟩ :=
    hrun.counts_of_mounted (Board.steady_start s intervals 0 ⟨0⟩) hmounted t ht
  have hbase : Happening.base 1 0 h = last := by
    rw [Happening.base, hcommits]
    rfl
  rw [hbase, hrun.settings_eq.1, hnow] at hp
  have hahead := (hquiet t (Board.task?_mem ht)).2.2
  rw [hnow] at hahead
  rw [← htickMs]
  exact ⟨t, slot.offset, before, gone,
    ⟨hset, hrun, hmounted, ht, by rw [hcommits]; rfl, hnow, hquiet, hslot, rfl⟩, hahead, hp⟩

/-- What a view shows is right up to one second. -/
def Settings.KeepsSeconds (s : Settings) : Prop :=
  ∀ elapsed offset, s.Shows elapsed offset → elapsed ≤ maxSeconds * 1000 →
    offset * 1000 ≤ elapsed + 1000 ∧ elapsed ≤ offset * 1000 + 1000

/-- A view whose ticks come faster shows two of them too soon, after a commit at the
instant of a tick. -/
theorem Settings.not_keepsSeconds_of_lt {s : Settings} (hs : s.fault? = none)
    (hfast : s.polling.tickMs < 1000) : ¬ s.KeepsSeconds := by
  intro hkeeps
  obtain ⟨intervals, hset⟩ := intervals_of_fault? hs
  have hpos : 0 < s.polling.tickMs := (of_intervals hset).2 ▸ intervals.tick_pos
  have hpollpos : 0 < s.polling.pollMs := (of_intervals hset).1 ▸ intervals.poll_pos
  generalize hp : s.polling.pollMs = p at hpollpos
  generalize ht : s.polling.tickMs = period at hfast hpos
  have hlast : s.polling.pollMs ≤ p * period := hp ▸ Nat.le_mul_of_pos_right p hpos
  obtain ⟨t, offset, before, gone, hshows, hahead, hbeats⟩ := exists_shows hs hlast period
  rw [ht] at hbeats
  -- two grid points lie between the commit and the present, both ends included
  have hfirst : p ∈ Finset.Ioc before gone :=
    (hbeats.mem_iff hahead p).mp ⟨hpollpos, by omega, by omega⟩
  have hsecond : p + 1 ∈ Finset.Ioc before gone :=
    (hbeats.mem_iff hahead (p + 1)).mp
      ⟨by omega, by rw [Nat.succ_mul]; omega, by rw [Nat.succ_mul]; omega⟩
  have hoffset : 2 ≤ offset := by
    have hmax : 2 ≤ maxSeconds := by decide
    simp only [Finset.mem_Ioc] at hfirst hsecond
    rw [hbeats.offset_eq, addSeconds]
    omega
  have hbrief : period ≤ maxSeconds * 1000 := by
    have hmax : 1 ≤ maxSeconds := by decide
    omega
  have hkept := (hkeeps period offset hshows hbrief).1
  omega

/-- A view whose ticks come more slowly shows two of them at most after three seconds, if the
commit has just missed one. -/
theorem Settings.not_keepsSeconds_of_gt {s : Settings} (hs : s.fault? = none)
    (hslow : 1000 < s.polling.tickMs) : ¬ s.KeepsSeconds := by
  intro hkeeps
  generalize hp : s.polling.pollMs = p
  generalize ht : s.polling.tickMs = period at hslow
  have hlast : s.polling.pollMs ≤ p * period + 1 := by
    have hle := Nat.le_mul_of_pos_right p (show 0 < period by omega)
    omega
  obtain ⟨t, offset, before, gone, hshows, hahead, hbeats⟩ := exists_shows hs hlast 3001
  rw [ht] at hbeats
  have hoffset : offset ≤ 2 := by
    refine Nat.le_of_not_lt fun hthree => ?_
    have hgone : before + 3 ≤ gone := by
      rw [hbeats.offset_eq, addSeconds] at hthree
      omega
    obtain ⟨_, hafter, _⟩ :=
      (hbeats.mem_iff hahead (before + 1)).mpr (by simp only [Finset.mem_Ioc]; omega)
    obtain ⟨_, _, hpast⟩ :=
      (hbeats.mem_iff hahead (before + 3)).mpr (by simp only [Finset.mem_Ioc]; omega)
    -- the first grid point that is counted comes after the one that the commit has just missed
    have hmissed : p + 1 ≤ before + 1 := by
      refine Nat.lt_of_not_le fun hle => ?_
      have hmul := Nat.mul_le_mul_right period hle
      omega
    have hmul := Nat.mul_le_mul_right period (show p + 3 ≤ before + 3 by omega)
    rw [Nat.add_mul p 3] at hmul
    omega
  have hkept := (hkeeps 3001 offset hshows (by decide)).2
  omega

/-- What a view shows since its last commit is right up to one tick.  It is right up to one
second, on every run and for as long as seconds can be counted, exactly if the ticks are set to
one second. -/
theorem Settings.keepsSeconds_iff {s : Settings} (hs : s.fault? = none) :
    (∀ elapsed offset, s.Shows elapsed offset → ∃ n, offset = min n maxSeconds ∧
      n * s.polling.tickMs ≤ elapsed + s.polling.tickMs ∧
      elapsed < (n + 1) * s.polling.tickMs) ∧
      (s.KeepsSeconds ↔ s.polling.tickMs = 1000) := by
  refine ⟨fun elapsed offset hshows => hshows.near, ?_, ?_⟩
  · intro hkeeps
    rcases Nat.lt_trichotomy s.polling.tickMs 1000 with hfast | hsecond | hslow
    · exact absurd hkeeps (not_keepsSeconds_of_lt hs hfast)
    · exact hsecond
    · exact absurd hkeeps (not_keepsSeconds_of_gt hs hslow)
  · intro hsecond elapsed offset hshows hle
    obtain ⟨n, rfl, hless, hmore⟩ := hshows.near
    rw [hsecond] at hless hmore
    omega

/-- The settings that stand when nothing is set keep seconds, and those with ticks of 50
milliseconds do not. -/
theorem Settings.keepsSeconds_standing :
    ({} : Settings).fault? = none ∧ ({} : Settings).KeepsSeconds ∧
      ¬ ({ polling := { tickMs := 50, pollMs := 200 } } : Settings).KeepsSeconds := by
  refine ⟨by decide, (keepsSeconds_iff (by decide)).2.mpr rfl, fun hkeeps => ?_⟩
  have hfifty := (keepsSeconds_iff (by decide)).2.mp hkeeps
  cases hfifty

/-- With ticks of five seconds a view shows nothing four seconds after a commit. -/
theorem Settings.shows_nothing_after_four_seconds : ∃ s : Settings,
    Settings.ofText "polling:\n  tick_interval_ms: 5000\n  poll_interval_ms: 60000\n" = .ok s ∧
      s.fault? = none ∧
      s.Shows 4000 0 ∧ 4000 ≤ maxSeconds * 1000 ∧ ¬ 4000 ≤ 0 * 1000 + 1000 := by
  let s : Settings := { polling := { tickMs := 5000, pollMs := 60000 } }
  let script : Script := { heaters := some default }
  let b₀ := Board.start s ⟨60000, 5000, by decide, by decide⟩ 0 ⟨0⟩
  let b₁ := ((b₀.attend (.script script)).hold .heaters).2
  let b₂ := b₁.move 1 .poll
  let b₃ := b₂.move 1 .answers
  let b₄ := { b₃ with now := 4000 }
  let h : List Happening := [.attended (.script script) 0, .mounted 1 .heaters 0,
    b₁.moving 1 .poll, b₂.moving 1 .answers, .passed 4000]
  have hopen : Step b₁ (b₁.moving 1 .poll) b₂ := .of_canMove (by decide +kernel)
  have hclose : Step b₂ (b₂.moving 1 .answers) b₃ := .of_canMove (by decide +kernel)
  have hsleeps : b₃.SleepsUntil 4000 := by decide +kernel
  have hrun : Run b₀ h b₄ :=
    .cons (.attend b₀ _) <| .cons (.hold _ .heaters) <| .cons hopen <| .cons hclose <|
      .single (.pass (by decide +kernel) hsleeps)
  have hsome : (b₄.task? 1).isSome = true := by decide +kernel
  obtain ⟨t, ht⟩ := Option.isSome_iff_exists.mp hsome
  have hslot :
      b₄.store.get? 1 =
        some { kind := .heaters, snapshot := some (.heaters default), polledAt := some 0 } := by
    decide +kernel
  have hlast : (Happening.commits 1 h).getLast? = some (0, .heaters default) := by
    decide +kernel
  have hmounted : .mounted 1 .heaters 0 ∈ h := by simp [h]
  refine ⟨s, by decide +kernel, by decide, ?_, by decide, by decide⟩
  exact ⟨rfl, hrun, hmounted, ht, hlast, rfl, by decide +kernel, hslot, rfl⟩

end HouseBoard
