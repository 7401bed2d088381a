/-
HouseBoard.Proofs.Schedule — letting tasks run is a run, after which nothing is left to do.

`Board.settle` wakes the tasks whose timers are due, one after the other, and each makes its
moves in a fixed order.  That this is a run of the dashboard is one thing; that all is done then
is another, and rests on two facts about timers.  No tick is ever overdue, since time does not
pass a tick (Section 2).  And a task waits for timers that are set, so that whatever it has to
do next is among them (Section 3).  Section 4 follows one task from its waking to its rest, and
Section 5 all of them.
-/
import HouseBoard.Proofs.Sound

namespace HouseBoard

/-! ## Section 1 — what happens to one view -/

/-- A board comes from another one by what happens to one view. -/
def Board.Acts (id : ViewId) (b b' : Board) : Prop := ∃ h, Run b h b' ∧ ∀ x ∈ h, x.id? = some id

namespace Board.Acts

variable {id : ViewId} {b b' b'' : Board}

theorem refl (id : ViewId) (b : Board) : Acts id b b := ⟨[], .refl b, by simp⟩

theorem step {x : Happening} (h : Acts id b b') (hstep : Step b' x b'') (hx : x.id? = some id) :
    Acts id b b'' := by
  obtain ⟨trace, hrun, hid⟩ := h
  refine ⟨trace ++ [x], .step hrun hstep, ?_⟩
  intro y hy
  rcases List.mem_append.mp hy with hy | hy
  · exact hid y hy
  · rwa [List.mem_singleton.mp hy]

/-- Time stands still, and the tasks of all other views are left alone. -/
theorem frame (h : Acts id b b') : b'.now = b.now ∧ ∀ j, j ≠ id → b'.task? j = b.task? j := by
  obtain ⟨trace, hrun, hid⟩ := h
  induction hrun with
  | refl => exact ⟨rfl, fun _ _ => rfl⟩
  | @step b₁ b₂ trace₁ x hrun₁ hstep ih =>
    obtain ⟨hnow, htasks⟩ := ih fun y hy => hid y (List.mem_append_left _ hy)
    have hx : x.id? = some id := hid x (by simp)
    constructor
    · rw [hstep.now_eq, hnow]
      rintro n rfl
      cases hx
    · intro j hj
      have hother : x.isOf j = false := by simp [Happening.isOf, hx, Ne.symm hj]
      rw [(hstep.frame hother).1, htasks j hj]

end Board.Acts

/-! ## Section 2 — ticks are in time -/

/-- No tick is overdue. -/
def Board.Timely (b : Board) : Prop := ∀ id t, b.task? id = some t → b.now ≤ t.tick.due

/-- A tick that goes off in time is set to a later instant. -/
theorem Board.le_turn_tick_due {b : Board} {t : ViewTask} (h : b.now ≤ t.tick.due) :
    b.now < (b.turn t .tick).1.tick.due := by
  obtain ⟨_, _, htick⟩ := b.turn_tick t
  rw [htick]
  by_cases hdue : t.tick.due ≤ b.now
  · rw [if_pos hdue, Timer.next_due_of_eq (Nat.le_antisymm hdue h)]
    exact Nat.lt_add_of_pos_right b.intervals.tick_pos
  · rw [if_neg hdue]
    exact Nat.lt_of_not_le hdue

/-- No move makes a tick overdue. -/
theorem Board.le_turn_due {b : Board} {t : ViewTask} (h : b.now ≤ t.tick.due) (m : Move) :
    b.now ≤ (b.turn t m).1.tick.due := by
  cases m with
  | answers => rwa [(b.turn_answers t).2.1]
  | poll => rwa [(b.turn_poll t).2.1]
  | tick => exact Nat.le_of_lt (le_turn_tick_due h)
  | rest => rwa [(b.turn_rest t).2.1]

/-- No step makes a tick overdue. -/
theorem Step.timely {b b' : Board} {x : Happening} (h : Step b x b') (htidy : b.Tidy)
    (hb : b.Timely) : b'.Timely := by
  intro id t' ht'
  cases h.origin htidy ht' with
  | other hx ht =>
    rcases h.now_cases with hnow | ⟨n, _, _, hsleeps, rfl⟩
    · rw [hnow]
      exact hb id t' ht
    · exact (hsleeps t' (Board.task?_mem ht')).2.2
  | mounted =>
    rw [h.now_eq (by simp)]
    exact Nat.le_add_right _ _
  | @dropped t ht =>
    rw [h.now_eq (by simp)]
    exact hb id t ht
  | @moved t m ht =>
    rw [h.now_eq (by simp)]
    exact Board.le_turn_due (hb id t ht) m

/-- What holds of a board at every moment of a run. -/
structure Board.Steady (b : Board) : Prop where
  tidy : b.Tidy
  sound : b.Sound
  timely : b.Timely

theorem Board.steady_start (s : Settings) (intervals : Intervals) (wall : Int)
    (firstToast : Uuid) :
    (start s intervals wall firstToast).Steady where
  tidy := tidy_start s intervals wall firstToast
  sound := sound_start s intervals wall firstToast
  timely := by
    intro id t ht
    cases ht

theorem Run.steady {b b' : Board} {h : List Happening} (hrun : Run b h b') (hb : b.Steady) :
    b'.Steady :=
  hrun.preserves (fun _ _ _ hb hstep =>
    ⟨hstep.tidy hb.tidy, hstep.sound hb.tidy hb.sound, hstep.timely hb.tidy hb.timely⟩) hb

/-- What one task does changes nothing of what the controller answers. -/
theorem Board.Acts.orderly {id : ViewId} {b b' : Board} (h : Acts id b b') :
    ∃ h, OrderlyRun b h b' := by
  obtain ⟨h, hrun, hown⟩ := h
  refine ⟨h, .of_run hrun fun x hx s wall heq => ?_⟩
  have hid := hown x hx
  rw [heq] at hid
  cases hid

theorem Board.Acts.steady {id : ViewId} {b b' : Board} (h : Acts id b b') (hb : b.Steady) :
    b'.Steady := by
  obtain ⟨_, hrun, _⟩ := h
  exact hrun.steady hb

/-! ## Section 3 — tasks that wait for timers -/

/-- A task waits for timers that are set.  A task that was just mounted has set its poll alone,
which comes before its first tick. -/
structure ViewTask.Armed (t : ViewTask) : Prop where
  poll : t.fetch = none → t.poll.stamp.isSome = true
  fetch : ∀ f, t.fetch = some f → f.timers ≠ []
  tick : t.tick.stamp.isSome = true ∨ (t.fetch = none ∧ t.poll.due ≤ t.tick.due)

namespace ViewTask

variable {t : ViewTask} {n : Nat}

/-- The poll of a task that makes no fetch is among its timers once it is set. -/
theorem exists_mem_timers_of_poll (hfetch : t.fetch = none)
    (hset : t.poll.stamp.isSome = true) : ∃ e ∈ t.timers, e.1 = t.poll.due := by
  obtain ⟨stamp, hstamp⟩ := Option.isSome_iff_exists.mp hset
  exact ⟨(t.poll.due, stamp), by simp [timers, hfetch, Timer.entry?, hstamp], rfl⟩

/-- The tick of a task is among its timers once it is set. -/
theorem exists_mem_timers_of_tick (hset : t.tick.stamp.isSome = true) :
    ∃ e ∈ t.timers, e.1 = t.tick.due := by
  obtain ⟨stamp, hstamp⟩ := Option.isSome_iff_exists.mp hset
  refine ⟨(t.tick.due, stamp), ?_, rfl⟩
  unfold timers
  cases t.fetch <;> simp [Timer.entry?, hstamp]

theorem mem_timers_of_fetch {f : Fetch} (hfetch : t.fetch = some f) {e : Nat × Nat}
    (he : e ∈ f.timers) : e ∈ t.timers := by
  simp [timers, hfetch, he]

/-- A task that waits for its timers has nothing to do before the first of them. -/
theorem Armed.sleepsUntil (h : t.Armed) (hawake : t.cancelled = false)
    (hlate : ∀ e ∈ t.timers, n ≤ e.1) : t.SleepsUntil n := by
  have hpoll (hnone : t.fetch = none) : n ≤ t.poll.due := by
    obtain ⟨e, he, hdue⟩ := exists_mem_timers_of_poll hnone (h.poll hnone)
    exact hdue ▸ hlate e he
  refine ⟨hawake, ?_, ?_⟩
  · unfold AwaitsUntil
    split
    · rename_i f hfetch
      exact ⟨h.fetch f hfetch, fun e he => hlate e (mem_timers_of_fetch hfetch he)⟩
    · rename_i hnone
      exact hpoll hnone
  · rcases h.tick with hset | ⟨hnone, hle⟩
    · obtain ⟨e, he, hdue⟩ := exists_mem_timers_of_tick hset
      exact hdue ▸ hlate e he
    · exact Nat.le_trans (hpoll hnone) hle

/-- A task that waits for its timers has one. -/
theorem Armed.timers_ne_nil (h : t.Armed) : t.timers ≠ [] := by
  cases hfetch : t.fetch with
  | none =>
    obtain ⟨e, he, _⟩ := exists_mem_timers_of_poll hfetch (h.poll hfetch)
    exact List.ne_nil_of_mem he
  | some f =>
    obtain ⟨e, he⟩ := List.exists_mem_of_ne_nil _ (h.fetch f hfetch)
    exact List.ne_nil_of_mem (mem_timers_of_fetch hfetch he)

/-- A task that waits for its timers and is not woken has nothing to do at an instant. -/
theorem Armed.sleepsUntil_of_firstDue? (h : t.cancelled = false → t.Armed) {now : Nat}
    (hnone : t.firstDue? now = none) : t.SleepsUntil (now + 1) := by
  unfold firstDue? at hnone
  cases hcancelled : t.cancelled with
  | true =>
    rw [if_pos hcancelled] at hnone
    cases hnone
  | false =>
    rw [if_neg (by simp [hcancelled]), List.min?_eq_none_iff, List.map_eq_nil_iff] at hnone
    refine (h hcancelled).sleepsUntil hcancelled ?_
    intro e he
    have hearly := List.filter_eq_nil_iff.mp hnone e he
    exact Nat.lt_of_not_le (by simpa using hearly)

end ViewTask

/-- Every task that was not given up waits for its timers. -/
def Board.Armed (b : Board) : Prop :=
  ∀ id t, b.task? id = some t → t.cancelled = false → t.Armed

/-! ## Section 4 — the waking of a task -/

/-- A poll that starts makes up for one of the polls that are overdue, or for all of
them if it is late. -/
theorem Timer.lt_next_due {t : Timer} {period now rounds : Nat} (hpos : 0 < period)
    (h : t.due + tolerance < now ∨ now < t.due + (rounds + 1)) :
    now < (t.next period now).due + rounds := by
  by_cases hlate : t.due + tolerance < now
  · obtain ⟨_, _, hlt, _⟩ := Timer.next_due_of_late hlate hpos
    exact Nat.lt_of_lt_of_le hlt (Nat.le_add_right _ _)
  · have hnext : (t.next period now).due = t.due + period := by rw [Timer.next, if_neg hlate]
    have hearly := h.resolve_left hlate
    rw [hnext]
    omega

/-- A task has taken up the answers that have come, and makes up for the polls that are
overdue in some rounds. -/
structure ViewTask.CatchesUp (t : ViewTask) (now rounds : Nat) : Prop where
  awake : t.cancelled = false
  waits : ∀ f, t.fetch = some f → f.SleepsUntil (now + 1)
  enough : t.fetch = none → (t.poll.due + tolerance < now ∧ 0 < rounds) ∨
    now < t.poll.due + rounds

/-- A task that starts no poll has nothing but ticks to do at an instant. -/
theorem ViewTask.CatchesUp.awaitsUntil {t : ViewTask} {now rounds : Nat}
    (h : t.CatchesUp now rounds) (hno : t.pollsAt now = false) : t.AwaitsUntil (now + 1) := by
  unfold AwaitsUntil
  split
  · rename_i f hfetch
    exact h.waits f hfetch
  · rename_i hnone
    simp only [pollsAt, hnone, Option.isNone_none, Bool.true_and,
      decide_eq_false_iff_not] at hno
    exact Nat.lt_of_not_le hno

namespace Board

variable {b s : Board} {id : ViewId} {m : Move}

theorem move_of_none (h : b.task? id = none) : b.move id m = b := by
  simp only [move, h]

/-- A task that takes up answers goes on with a fetch whose other answers are to come. -/
theorem turn_answers_waits (hb : b.Sound) {t : ViewTask} (ht : b.task? id = some t) :
    ∀ f, (b.turn t .answers).1.fetch = some f → f.SleepsUntil (b.now + 1) := by
  intro f hf
  obtain ⟨slot, _, hs⟩ := hb id t ht
  obtain ⟨p, hp, _⟩ := hs.exists_poll
  cases hfetch : t.fetch with
  | none =>
    rw [(b.turn_answers t).2.2 hfetch] at hf
    cases hf
  | some f₀ =>
    rcases b.turn_meets (m := .answers)
        (ViewTask.proceed_ensures hfetch (hp f₀ hfetch) (b.scene t.id)) with
      ⟨f', heq, _, hsleeps, _⟩ | ⟨heq, _⟩
    · rw [heq] at hf
      cases hf
      exact hsleeps
    · rw [heq] at hf
      cases hf

/-- A move of the task of a view is something that happens to the view; a task that is still
there has made its turn. -/
theorem Acts.move (h : Acts id b s)
    (hm : ∀ t, s.task? id = some t → t.cancelled = false ∧ t.Allows s.now m) :
    Acts id b (s.move id m) ∧
      ∀ t', (s.move id m).task? id = some t' → ∃ t, s.task? id = some t ∧
      t' = (s.turn t m).1 := by
  cases ht : s.task? id with
  | none =>
    rw [move_of_none ht]
    refine ⟨h, fun t' ht' => ?_⟩
    rw [ht] at ht'
    cases ht'
  | some t =>
    obtain ⟨hcancelled, hallows⟩ := hm t ht
    cases hperforms : s.performs t m with
    | true =>
      have hstep := Step.move ht hcancelled hallows hperforms
      refine ⟨h.step hstep rfl, fun t' ht' => ⟨t, rfl, ?_⟩⟩
      obtain ⟨u, hu, _, _, _, _, _, htask, _⟩ := hstep.of_moved
      rw [ht] at hu
      cases hu
      rw [htask] at ht'
      exact (Option.some.inj ht').symm
    | false =>
      have hstep := Step.fall ht hcancelled hallows hperforms
      refine ⟨h.step hstep rfl, fun t' ht' => ?_⟩
      rw [hstep.of_fell.2.1] at ht'
      cases ht'

/-- A poll and the answers that come at once: one round of catching up. -/
theorem Acts.round (h : Acts id b s) (hb : b.Steady) {rounds : Nat}
    (ht : ∀ t, s.task? id = some t → t.CatchesUp s.now (rounds + 1) ∧ t.pollsAt s.now = true) :
    Acts id b ((s.move id .poll).move id .answers) ∧
      ∀ t, ((s.move id .poll).move id .answers).task? id = some t →
        t.CatchesUp ((s.move id .poll).move id .answers).now rounds := by
  obtain ⟨hpoll, hpolled⟩ :=
    h.move (m := .poll) fun t htask => ⟨(ht t htask).1.awake, (ht t htask).2⟩
  obtain ⟨hanswers, hanswered⟩ := hpoll.move (m := .answers) fun t htask => by
    obtain ⟨t₀, ht₀, rfl⟩ := hpolled t htask
    exact ⟨(s.turn_cancelled t₀ .poll).trans (ht t₀ ht₀).1.awake, trivial⟩
  refine ⟨hanswers, fun t₂ ht₂ => ?_⟩
  obtain ⟨t₁, ht₁, rfl⟩ := hanswered t₂ ht₂
  obtain ⟨t₀, ht₀, rfl⟩ := hpolled t₁ ht₁
  obtain ⟨hcatches, hpolls⟩ := ht t₀ ht₀
  have hnow : ((s.move id .poll).move id .answers).now = s.now :=
    hanswers.frame.1.trans h.frame.1.symm
  have hnow₁ : (s.move id .poll).now = s.now := hpoll.frame.1.trans h.frame.1.symm
  have hsound := (hpoll.steady hb).sound
  have hdue : t₀.fetch = none := by
    simp only [ViewTask.pollsAt, Bool.and_eq_true, Option.isNone_iff_eq_none] at hpolls
    exact hpolls.1
  refine ⟨(turn_cancelled _ _ _).trans ((turn_cancelled _ _ _).trans hcatches.awake), ?_,
    fun _ => .inr ?_⟩
  · rw [hnow, ← hnow₁]
    exact turn_answers_waits hsound ht₁
  · rw [((s.move id .poll).turn_answers _).1, (s.turn_poll t₀).1, hnow]
    exact Timer.lt_next_due s.intervals.poll_pos ((hcatches.enough hdue).imp_left And.left)

/-- A task that starts the polls that are due has nothing but ticks to do then. -/
theorem Acts.startPolls (h : Acts id b s) (hb : b.Steady) {rounds : Nat}
    (ht : ∀ t, s.task? id = some t → t.CatchesUp s.now rounds) :
    Acts id b (startPolls id rounds s) ∧
      ∀ t, (Board.startPolls id rounds s).task? id = some t →
      t.cancelled = false ∧ t.AwaitsUntil (b.now + 1) := by
  induction rounds generalizing s with
  | zero =>
    refine ⟨h, fun t htask => ⟨(ht t htask).awake, ?_⟩⟩
    have hcatches := ht t htask
    rw [← h.frame.1]
    refine hcatches.awaitsUntil ?_
    -- no rounds are left, and so no poll is due
    cases hfetch : t.fetch with
    | some f => simp [ViewTask.pollsAt, hfetch]
    | none =>
      have hlt : s.now < t.poll.due :=
        (hcatches.enough hfetch).resolve_left fun hlate => Nat.lt_irrefl 0 hlate.2
      simp [ViewTask.pollsAt, hlt]
  | succ rounds ih =>
    unfold Board.startPolls
    cases hpolls : (s.task? id).any (·.pollsAt s.now) with
    | true =>
      rw [if_pos rfl]
      have hround : ∀ t, s.task? id = some t → t.CatchesUp s.now (rounds + 1) ∧
          t.pollsAt s.now = true := by
        intro t htask
        rw [htask, Option.any_some] at hpolls
        exact ⟨ht t htask, hpolls⟩
      obtain ⟨hacts, hcatches⟩ := h.round hb hround
      exact ih hacts hcatches
    | false =>
      rw [if_neg (by simp)]
      refine ⟨h, fun t htask => ⟨(ht t htask).awake, ?_⟩⟩
      rw [htask, Option.any_some] at hpolls
      rw [← h.frame.1]
      exact (ht t htask).awaitsUntil hpolls

/-- A task that takes up the answers that have come catches up, however many polls
are overdue. -/
theorem acts_answers (hb : b.Steady) {t : ViewTask} (ht : b.task? id = some t)
    (hawake : t.cancelled = false) :
    Acts id b (b.move id .answers) ∧
      ∀ t', (b.move id .answers).task? id = some t' →
      t'.CatchesUp (b.move id .answers).now (tolerance + 2) := by
  obtain ⟨hacts, hmoved⟩ := (Acts.refl id b).move (m := .answers) fun u hu => by
    rw [ht] at hu
    cases hu
    exact ⟨hawake, trivial⟩
  refine ⟨hacts, fun t' ht' => ?_⟩
  obtain ⟨u, hu, rfl⟩ := hmoved t' ht'
  rw [ht] at hu
  cases hu
  rw [hacts.frame.1]
  refine ⟨(b.turn_cancelled t .answers).trans hawake,
    turn_answers_waits hb.sound ht, fun _ => ?_⟩
  simp only [tolerance]
  omega

/-- A task that has nothing but ticks to do sleeps after its tick. -/
theorem Acts.tick (h : Acts id b s) (hb : b.Steady)
    (ht : ∀ t, s.task? id = some t → t.cancelled = false ∧ t.AwaitsUntil (b.now + 1)) :
    Acts id b (s.move id .tick) ∧ ∀ t, (s.move id .tick).task? id = some t →
    t.SleepsUntil (b.now + 1) := by
  obtain ⟨hacts, hmoved⟩ := h.move (m := .tick) fun t htask => by
    rw [h.frame.1]
    exact ht t htask
  refine ⟨hacts, fun t' ht' => ?_⟩
  obtain ⟨t, htask, rfl⟩ := hmoved t' ht'
  obtain ⟨hawake, hawaits⟩ := ht t htask
  obtain ⟨hpoll, hfetch, _⟩ := s.turn_tick t
  refine ⟨(s.turn_cancelled t .tick).trans hawake, ?_, ?_⟩
  · simp only [ViewTask.AwaitsUntil, hpoll, hfetch]
    exact hawaits
  · rw [← h.frame.1]
    exact le_turn_tick_due ((h.steady hb).timely id t htask)

/-- A task that sleeps waits for its timers once they are set. -/
theorem Acts.rest (h : Acts id b s) {n : Nat}
    (ht : ∀ t, s.task? id = some t → t.SleepsUntil n) :
    Acts id b (s.move id .rest) ∧ ∀ t, (s.move id .rest).task? id = some t →
    t.SleepsUntil n ∧ t.Armed := by
  obtain ⟨hacts, hmoved⟩ := h.move (m := .rest) fun t htask => ⟨(ht t htask).1, trivial⟩
  refine ⟨hacts, fun t' ht' => ?_⟩
  obtain ⟨t, htask, rfl⟩ := hmoved t' ht'
  obtain ⟨hawake, hawaits, htick⟩ := ht t htask
  obtain ⟨hpolldue, htickdue, hfetch, hpollset, htickset⟩ := s.turn_rest t
  refine ⟨⟨(s.turn_cancelled t .rest).trans hawake, ?_, htickdue ▸ htick⟩, ?_, ?_,
    .inl htickset⟩
  · simp only [ViewTask.AwaitsUntil, hpolldue, hfetch]
    exact hawaits
  · exact fun hnone => hpollset (hfetch ▸ hnone)
  · intro f hf
    rw [hfetch] at hf
    rw [ViewTask.AwaitsUntil, hf] at hawaits
    exact hawaits.1

/-- A task that was woken has nothing more to do at the instant, and waits for its timers; one
that was given up is gone. -/
theorem wake_acts (hb : b.Steady) (id : ViewId) :
    Acts id b (b.wake id) ∧ ∀ t, (b.wake id).task? id = some t →
    t.SleepsUntil (b.now + 1) ∧ t.Armed := by
  unfold wake
  cases ht : b.task? id with
  | none =>
    refine ⟨.refl id b, fun t htask => ?_⟩
    rw [ht] at htask
    cases htask
  | some t =>
    cases hcancelled : t.cancelled with
    | true =>
      have hstep := Step.leave ht hcancelled
      simp only [hcancelled, if_true]
      refine ⟨(Acts.refl id b).step hstep rfl, fun t' htask => ?_⟩
      rw [hstep.of_left.2.1] at htask
      cases htask
    | false =>
      simp only [hcancelled, Bool.false_eq_true, if_false]
      obtain ⟨hanswers, hcatches⟩ := acts_answers hb ht hcancelled
      obtain ⟨hpolls, hawaits⟩ := hanswers.startPolls hb hcatches
      obtain ⟨hticks, hsleeps⟩ := hpolls.tick hb hawaits
      exact hticks.rest hsleeps

/-! ## Section 5 — all tasks that wake at an instant -/

/-- Tasks that are woken one after the other have nothing more to do at the instant; the
others are left alone. -/
theorem foldl_wake (ids : List ViewId) {b : Board} (hb : b.Steady) :
    ∃ h, OrderlyRun b h (ids.foldl wake b) ∧ (ids.foldl wake b).now = b.now ∧
      ∀ id t, (ids.foldl wake b).task? id = some t →
        (id ∈ ids → t.SleepsUntil (b.now + 1) ∧ t.Armed) ∧
        (id ∉ ids → b.task? id = some t) := by
  induction ids generalizing b with
  | nil => exact ⟨[], .refl b, rfl, fun id t ht => ⟨by simp, fun _ => ht⟩⟩
  | cons i ids ih =>
    obtain ⟨hacts, hwoken⟩ := wake_acts hb i
    obtain ⟨hnow, hothers⟩ := hacts.frame
    obtain ⟨h, hrun, hnow', htasks⟩ := ih (hacts.steady hb)
    obtain ⟨h₀, hrun₀⟩ := hacts.orderly
    rw [hnow] at hnow' htasks
    refine ⟨h₀ ++ h, hrun₀.append hrun, hnow', fun id t ht => ?_⟩
    obtain ⟨hin, hout⟩ := htasks id t ht
    by_cases hid : id ∈ ids
    · exact ⟨fun _ => hin hid, fun hno => absurd (List.mem_cons_of_mem i hid) hno⟩
    · constructor
      · intro hmem
        obtain rfl := (List.mem_cons.mp hmem).resolve_right hid
        exact hwoken t (hout hid)
      · intro hno
        rw [← hothers id (List.ne_of_not_mem_cons hno)]
        exact hout hid

/-- A view whose task does not wake at an instant is not among those that are ready. -/
theorem firstDue?_eq_none {t : ViewTask} (ht : b.task? id = some t) (hid : id ∉ b.ready) :
    t.firstDue? b.now = none := by
  cases hdue : t.firstDue? b.now with
  | none => rfl
  | some stamp =>
    refine absurd ?_ hid
    simp only [ready, List.mem_map, List.mem_mergeSort, List.mem_filterMap,
      Option.map_eq_some_iff]
    exact ⟨(stamp, t.id), ⟨t, task?_mem ht, stamp, hdue, rfl⟩, task?_id ht⟩

/-- What holds of a board between the things that are asked of it: each task waits
for its timers. -/
structure InOrder (b : Board) : Prop extends Steady b where
  armed : b.Armed

theorem inOrder_start (s : Settings) (intervals : Intervals) (wall : Int) (firstToast : Uuid) :
    (start s intervals wall firstToast).InOrder where
  toSteady := steady_start s intervals wall firstToast
  armed := by
    intro id t ht
    cases ht

/-- Letting all tasks run that wake at an instant is a run, and all is done then. -/
theorem settle_run (hb : b.InOrder) :
    ∃ h, OrderlyRun b h b.settle ∧ b.settle.now = b.now ∧ b.settle.Quiet ∧
    b.settle.InOrder := by
  obtain ⟨h, hrun, hnow, htasks⟩ := foldl_wake b.ready hb.toSteady
  have hsteady := hrun.run.steady hb.toSteady
  have hall : ∀ id t, b.settle.task? id = some t → t.SleepsUntil (b.now + 1) ∧
      (t.cancelled = false → t.Armed) := by
    intro id t ht
    obtain ⟨hin, hout⟩ := htasks id t ht
    by_cases hid : id ∈ b.ready
    · exact ⟨(hin hid).1, fun _ => (hin hid).2⟩
    · have harmed := hb.armed id t (hout hid)
      exact ⟨ViewTask.Armed.sleepsUntil_of_firstDue? harmed (firstDue?_eq_none (hout hid) hid),
        harmed⟩
  refine ⟨h, hrun, hnow, ?_, hsteady, fun id t ht => (hall id t ht).2⟩
  intro t ht
  rw [settle, hnow]
  exact (hall t.id t (hsteady.tidy.task?_of_mem ht)).1

end Board

end HouseBoard
