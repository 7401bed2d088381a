/-
HouseBoard.Proofs.Task — what the moves of a task do.

Each move has one statement, from which all that is proved of tasks is derived: answers are
taken up as the poll on its way says, a poll starts anew, the tick goes off when it is due, and
setting timers changes nothing else.  The section before them is about timers alone: how far the
next beat lies ahead.
-/
import HouseBoard.Board.Task
import HouseBoard.Proofs.Fetch

namespace HouseBoard

/-! ## Section 1 — timers -/

namespace Timer

/-- A timer that went off late goes off next within one period. -/
theorem next_due_of_late {t : Timer} {period now : Nat} (hlate : t.due + tolerance < now)
    (hpos : 0 < period) :
    ∃ k, (t.next period now).due = t.due + (k + 1) * period ∧ now < (t.next period now).due ∧
      (t.next period now).due ≤ now + period := by
  refine ⟨(now - t.due) / period, ?_⟩
  have hdue : (t.next period now).due = now + period - (now - t.due) % period := by
    rw [next, if_pos hlate]
  have hmod := Nat.mod_lt (now - t.due) hpos
  have hdiv := Nat.div_add_mod (now - t.due) period
  have hle : t.due ≤ now := by omega
  rw [hdue, Nat.add_mul, Nat.one_mul, Nat.mul_comm]
  omega

/-- The next beat is some periods later, and one period ahead at most. -/
theorem next_due {t : Timer} {period now : Nat} (hdue : t.due ≤ now) (hpos : 0 < period) :
    ∃ k, (t.next period now).due = t.due + (k + 1) * period ∧
    (t.next period now).due ≤ now + period := by
  by_cases hlate : t.due + tolerance < now
  · obtain ⟨k, hk, _, hle⟩ := next_due_of_late hlate hpos
    exact ⟨k, hk, hle⟩
  · have hnext : (t.next period now).due = t.due + period := by rw [next, if_neg hlate]
    refine ⟨0, ?_, ?_⟩
    · rw [hnext, Nat.zero_add, Nat.one_mul]
    · omega

/-- A timer that goes off in time goes off next one period later. -/
theorem next_due_of_eq {t : Timer} {period now : Nat} (hdue : t.due = now) :
    (t.next period now).due = now + period := by
  have hlate : ¬ t.due + tolerance < now := by omega
  rw [next, if_neg hlate, hdue]

/-- Setting a timer takes a number at most, and the timer is set then. -/
theorem set_ensures (t : Timer) :
    t.set.Ensures fun es t' => es = [] ∧ t'.due = t.due ∧ t'.stamp.isSome = true := by
  unfold set
  split
  · rename_i stamp hstamp
    exact Act.ensures_pure ⟨rfl, rfl, by simp [hstamp]⟩
  · refine (Act.ensures_stamp (P := fun es _ => es = []) fun _ => rfl).bind ?_
    rintro _ n rfl
    exact Act.ensures_pure ⟨rfl, rfl, rfl⟩

end Timer

/-! ## Section 2 — moves -/

/-- Effects that neither keep a state nor let a second pass leave a view as it is. -/
def Effect.isQuiet (e : Effect) : Bool := e.isCall || e.isSettlement

theorem Effect.isQuiet_of_or {e : Effect} (h : e.isCall = true ∨ e.isSettlement = true) :
    e.isQuiet = true := by
  simpa [isQuiet] using h

/-- What a poll is seen to do does not depend on what is kept in the end. -/
theorem Poll.see_commit (p : Poll) (s : Script) (es : List Effect) (learned : Option Snapshot) :
    p.see s (es ++ (learned.map Effect.commit).toList) = p.see s es := by
  cases learned with
  | none => rw [Option.map_none, Option.toList_none, List.append_nil]
  | some snapshot =>
    rw [← Poll.see_see]
    simp [Poll.see, Script.answer?, settlements, Effect.isSettlement]

namespace ViewTask

/-- Nothing but the ticks of a task is to be done before an instant. -/
def AwaitsUntil (t : ViewTask) (n : Nat) : Prop :=
  match t.fetch with
  | some f => f.SleepsUntil n
  | none => n ≤ t.poll.due

instance (t : ViewTask) (n : Nat) : Decidable (t.AwaitsUntil n) :=
  match h : t.fetch with
  | some f => decidable_of_iff (f.SleepsUntil n) (by rw [AwaitsUntil, h])
  | none => decidable_of_iff (n ≤ t.poll.due) (by rw [AwaitsUntil, h])

theorem AwaitsUntil.mono {t : ViewTask} {m n : Nat} (h : t.AwaitsUntil n) (hle : m ≤ n) :
    t.AwaitsUntil m := by
  unfold AwaitsUntil at h ⊢
  split
  · rename_i f hfetch
    simp only [hfetch] at h
    exact ⟨h.1, fun e he => Nat.le_trans hle (h.2 e he)⟩
  · rename_i hfetch
    simp only [hfetch] at h
    exact Nat.le_trans hle h

/-- What taking up answers does to a fetch on its way: it is still on its way, or it has ended
and what it has learned is kept. -/
def Proceeds (t : ViewTask) (p : Poll) (scene : Scene) (es : List Effect)
    (t' : ViewTask) : Prop :=
  (∃ f, t' = { t with fetch := some f } ∧ f.Agrees (p.see scene.script es) t.kind ∧
    f.SleepsUntil (scene.now + 1) ∧
    ∀ e ∈ es, e.isQuiet = true) ∨
  (t' = { t with fetch := none } ∧ ∃ learned es₀,
    es = es₀ ++ (learned.map Effect.commit).toList ∧
    (∀ e ∈ es₀, e.isQuiet = true) ∧ (p.see scene.script es).learned? t.kind = some learned ∧
    (p.see scene.script es).taken = (p.see scene.script es).settled t.kind)

/-- Answers are taken up as the poll on its way says. -/
theorem proceed_ensures {t : ViewTask} {f : Fetch} {p : Poll} (hf : t.fetch = some f)
    (h : f.Agrees p t.kind) (scene : Scene) :
    (t.proceed scene).Ensures (t.Proceeds p scene) := by
  simp only [proceed, hf]
  refine (Fetch.proceed_ensures h scene).bind ?_
  rintro es r ⟨hes, hr⟩
  have hquiet : ∀ e ∈ es, e.isQuiet = true := fun e he => Effect.isQuiet_of_or (hes e he)
  cases r with
  | underway f' =>
    obtain ⟨hagrees, hsleeps⟩ := hr
    refine Act.ensures_pure (.inl ⟨f', rfl, ?_⟩)
    rw [List.append_nil]
    exact ⟨hagrees, hsleeps, hquiet⟩
  | ended learned =>
    have hend : t.Proceeds p scene (es ++ (learned.map Effect.commit).toList)
        { t with fetch := none } := by
      refine .inr ⟨rfl, learned, es, rfl, hquiet, ?_⟩
      rwa [Poll.see_commit]
    cases learned with
    | none => exact Act.ensures_pure hend
    | some snapshot =>
      refine (Act.ensures_emit (P := fun es' _ => es' = [.commit snapshot]) rfl).bind ?_
      rintro _ ⟨⟩ rfl
      exact Act.ensures_pure hend

/-- A poll that starts knows what is known of the view. -/
theorem startPoll_ensures (t : ViewTask) (intervals : Intervals) (scene : Scene) :
    (t.startPoll intervals scene).Ensures fun es t' =>
      (∀ e ∈ es, e.isQuiet = true) ∧ ∃ f,
        t' = { t with poll := t.poll.next intervals.poll scene.now, fetch := some f } ∧
        f.Agrees ((Poll.unseen (Snapshot.sections scene.known)).see scene.script es)
          t.kind := by
  refine (Fetch.start_ensures scene t.kind).bind ?_
  rintro es f ⟨hcall, hagrees⟩
  refine Act.ensures_pure ?_
  rw [List.append_nil]
  exact ⟨fun e he => Effect.isQuiet_of_or (.inl (hcall e he)), f, rfl, hagrees⟩

/-- The tick goes off if it is due. -/
theorem runTick_ensures (t : ViewTask) (intervals : Intervals) (scene : Scene) :
    (t.runTick intervals scene).Ensures fun es t' =>
      (t.tick.due ≤ scene.now ∧ es = [.tick] ∧
        t' = { t with tick := t.tick.next intervals.tick scene.now }) ∨
      (scene.now < t.tick.due ∧ es = [] ∧ t' = t) := by
  unfold runTick
  by_cases hdue : t.tick.due ≤ scene.now
  · rw [if_pos hdue]
    refine (Act.ensures_emit (P := fun es _ => es = [.tick]) rfl).bind ?_
    rintro _ ⟨⟩ rfl
    exact Act.ensures_pure (.inl ⟨hdue, rfl, rfl⟩)
  · rw [if_neg hdue]
    exact Act.ensures_pure (.inr ⟨Nat.lt_of_not_le hdue, rfl, rfl⟩)

/-- Setting timers changes nothing but their numbers. -/
theorem setTimers_ensures (t : ViewTask) :
    t.setTimers.Ensures fun es t' =>
      es = [] ∧ ∃ poll tick, t' = { t with poll, tick } ∧ poll.due = t.poll.due ∧
        tick.due = t.tick.due ∧
        (t.fetch = none → poll.stamp.isSome = true) ∧ tick.stamp.isSome = true := by
  have hpoll : (if t.fetch.isNone then t.poll.set else pure t.poll : Act Timer).Ensures
    fun es poll =>
      es = [] ∧ poll.due = t.poll.due ∧ (t.fetch = none → poll.stamp.isSome = true) := by
    cases hfetch : t.fetch with
    | none => exact t.poll.set_ensures.mono fun _ _ ⟨hes, hdue, hstamp⟩ =>
      ⟨hes, hdue, fun _ => hstamp⟩
    | some f => exact Act.ensures_pure ⟨rfl, rfl, fun h => nomatch h⟩
  refine hpoll.bind ?_
  rintro _ poll ⟨rfl, hpolldue, hpollstamp⟩
  refine t.tick.set_ensures.bind ?_
  rintro _ tick ⟨rfl, htickdue, htickstamp⟩
  exact Act.ensures_pure ⟨rfl, poll, tick, rfl, hpolldue, htickdue, hpollstamp, htickstamp⟩

end ViewTask

end HouseBoard
