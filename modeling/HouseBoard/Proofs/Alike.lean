/-
HouseBoard.Proofs.Alike — acts that differ in the numbers of timers alone.

Timers take their numbers from all tasks of a board, and the numbers decide nothing but the
order in which tasks take turns.  `Act.Alike R m m'` says that two acts add the same effects and
give what is related by `R`, whatever was the next number; the rules follow the way acts are put
together.  The sections after them go along the definitions: what calls, fetches and tasks do is
the same for two of them that differ in numbers only.
-/
import HouseBoard.Board.Task
import HouseBoard.Proofs.Step

namespace HouseBoard

/-! ## Section 1 — two acts side by side -/

namespace Act

variable {α β α' β' : Type}

/-- Two acts add the same effects and give what is related, whatever numbers timers take. -/
def Alike (R : α → α' → Prop) (m : Act α) (m' : Act α') : Prop :=
  ∀ turn turn' : Turn, turn.effects = turn'.effects →
    (m.exec turn).2.effects = (m'.exec turn').2.effects ∧ R (m.exec turn).1 (m'.exec turn').1

theorem alike_pure {a : α} {a' : α'} {R : α → α' → Prop} (h : R a a') :
    Alike R (pure a) (pure a') :=
  fun _ _ heffects => ⟨heffects, h⟩

theorem alike_emit (e : Effect) : Alike Eq (emit e) (emit e) :=
  fun _ _ heffects => ⟨congrArg (· ++ [e]) heffects, rfl⟩

theorem alike_stamp : Alike (fun _ _ => True) stamp stamp :=
  fun _ _ heffects => ⟨heffects, trivial⟩

theorem Alike.bind {m : Act α} {m' : Act α'} {f : α → Act β} {f' : α' → Act β'}
    {R : α → α' → Prop} {S : β → β' → Prop} (hm : Alike R m m')
    (hf : ∀ a a', R a a' → Alike S (f a) (f' a')) : Alike S (m >>= f) (m' >>= f') := by
  intro turn turn' heffects
  obtain ⟨heffects', hR⟩ := hm turn turn' heffects
  exact hf _ _ hR _ _ heffects'

theorem alike_settle (c : Call) (o : Outcome c) : Alike Eq (settle c o) (settle c o) := by
  cases o with
  | ok a =>
    refine (alike_emit (.succeed c)).bind ?_
    rintro _ _ rfl
    exact alike_pure rfl
  | error e =>
    refine (alike_emit (.fail c e)).bind ?_
    rintro _ _ rfl
    exact alike_pure rfl

end Act

/-! ## Section 2 — calls and fetches -/

namespace Pending

variable {c : Call} {p p' : Pending c}

/-- Two calls that are to be answered at the same instant, or have the same answer. -/
inductive Same : Pending c → Pending c → Prop where
  | waiting (due stamp stamp' : Nat) : Same (.waiting due stamp) (.waiting due stamp')
  | answered (o : Outcome c) : Same (.answered o) (.answered o)

theorem Same.outcome?_eq (h : p.Same p') : p'.outcome? = p.outcome? := by
  cases h with
  | waiting due stamp stamp' => rfl
  | answered o => rfl

theorem Same.dues (h : p.Same p') : p'.timer?.map (·.1) = p.timer?.map (·.1) := by
  cases h with
  | waiting due stamp stamp' => rfl
  | answered o => rfl

theorem start_alike (scene : Scene) (c : Call) :
    Act.Alike Same (Pending.start scene c) (Pending.start scene c) := by
  unfold Pending.start
  refine (Act.alike_emit (.start c)).bind ?_
  rintro _ _ rfl
  cases scene.script.delayOf c with
  | some ms =>
    refine Act.alike_stamp.bind ?_
    intro stamp stamp' _
    exact Act.alike_pure (.waiting _ stamp stamp')
  | none =>
    refine (Act.alike_emit (.complete c)).bind ?_
    rintro _ _ rfl
    exact Act.alike_pure (.answered _)

theorem proceed_alike (scene : Scene) (h : p.Same p') :
    Act.Alike Same (p.proceed scene) (p'.proceed scene) := by
  cases h with
  | waiting due stamp stamp' =>
    simp only [proceed]
    split
    · refine (Act.alike_emit (.complete c)).bind ?_
      rintro _ _ rfl
      exact Act.alike_pure (.answered _)
    · exact Act.alike_pure (.waiting due stamp stamp')
  | answered o => exact Act.alike_pure (.answered o)

end Pending

namespace Fetch

/-- Two fetches whose calls are the same. -/
inductive Same : Fetch → Fetch → Prop where
  | home (known : HomeSnapshot) {heaters heaters' : Pending .heaters}
      {alarm alarm' : Pending .alarm} {alerts alerts' : Pending .devicesWithAlert}
      {ble ble' : Pending .ble} (hheaters : heaters.Same heaters') (halarm : alarm.Same alarm')
      (halerts : alerts.Same alerts') (hble : ble.Same ble') :
      Same (.home known heaters alarm alerts ble) (.home known heaters' alarm' alerts' ble')
  | plain (view : PlainView) {p p' : Pending view.call} (h : p.Same p') :
      Same (.plain view p) (.plain view p')
  | device (did : DeviceRef) {p p' : Pending (.device did)} (h : p.Same p') :
      Same (.device did p) (.device did p')
  | controller (state : DeviceState) (owner : Owner) {p p' : Pending owner.call}
      (h : p.Same p') :
      Same (.controller state owner p) (.controller state owner p')

/-- Two fetches after a step that are the same still, or have ended with the same. -/
inductive SameProgress : Progress → Progress → Prop where
  | underway {f f' : Fetch} (h : f.Same f') : SameProgress (.underway f) (.underway f')
  | ended (learned : Option Snapshot) : SameProgress (.ended learned) (.ended learned)

theorem start_alike (scene : Scene) (kind : ViewKind) :
    Act.Alike Same (Fetch.start scene kind) (Fetch.start scene kind) := by
  have hplain (v : PlainView) : Act.Alike Same
      (do return .plain v (← Pending.start scene v.call))
        (do return .plain v (← Pending.start scene v.call)) := by
    refine (Pending.start_alike scene v.call).bind ?_
    intro p p' hp
    exact Act.alike_pure (.plain v hp)
  cases kind with
  | home =>
    refine (Pending.start_alike scene .heaters).bind ?_
    intro heaters heaters' hheaters
    refine (Pending.start_alike scene .alarm).bind ?_
    intro alarm alarm' halarm
    refine (Pending.start_alike scene .devicesWithAlert).bind ?_
    intro alerts alerts' halerts
    refine (Pending.start_alike scene .ble).bind ?_
    intro ble ble' hble
    exact Act.alike_pure (.home _ hheaters halarm halerts hble)
  | ble => exact hplain .ble
  | garage => exact hplain .garage
  | heaters => exact hplain .heaters
  | alarm => exact hplain .alarm
  | device did =>
    refine (Pending.start_alike scene (.device did)).bind ?_
    intro p p' hp
    exact Act.alike_pure (.device did hp)

theorem settleHome_alike (known : HomeSnapshot) (heaters : Outcome .heaters)
    (alarm : Outcome .alarm) (alerts : Outcome .devicesWithAlert) (ble : Outcome .ble) :
    Act.Alike Eq (settleHome known heaters alarm alerts ble)
      (settleHome known heaters alarm alerts ble) := by
  refine (Act.alike_settle .heaters heaters).bind ?_
  rintro h _ rfl
  refine (Act.alike_settle .alarm alarm).bind ?_
  rintro a _ rfl
  refine (Act.alike_settle .devicesWithAlert alerts).bind ?_
  rintro d _ rfl
  refine (Act.alike_settle .ble ble).bind ?_
  rintro b _ rfl
  exact Act.alike_pure rfl

theorem proceedOwner_alike (scene : Scene) (state : DeviceState) (owner : Owner)
    {p p' : Pending owner.call} (h : p.Same p') :
    Act.Alike SameProgress (proceedOwner scene state owner p)
      (proceedOwner scene state owner p') := by
  refine (Pending.proceed_alike scene h).bind ?_
  intro q q' hq
  rw [hq.outcome?_eq]
  cases q.outcome? with
  | none => exact Act.alike_pure (.underway (.controller state owner hq))
  | some outcome =>
    refine (Act.alike_settle owner.call outcome).bind ?_
    rintro live _ rfl
    exact Act.alike_pure (.ended _)

theorem proceedDevice_alike (scene : Scene) (did : DeviceRef) {p p' : Pending (.device did)}
    (h : p.Same p') :
    Act.Alike SameProgress (proceedDevice scene did p) (proceedDevice scene did p') := by
  refine (Pending.proceed_alike scene h).bind ?_
  intro q q' hq
  rw [hq.outcome?_eq]
  cases q.outcome? with
  | none => exact Act.alike_pure (.underway (.device did hq))
  | some outcome =>
    refine (Act.alike_settle (.device did) outcome).bind ?_
    rintro taken _ rfl
    cases taken with
    | none => exact Act.alike_pure (.ended none)
    | some state =>
      cases hof : Owner.of? state with
      | none =>
        simp only [hof]
        exact Act.alike_pure (.ended _)
      | some owner =>
        simp only [hof]
        refine (Pending.start_alike scene owner.call).bind ?_
        intro r r' hr
        exact proceedOwner_alike scene state owner hr

theorem proceed_alike (scene : Scene) {f f' : Fetch} (h : f.Same f') :
    Act.Alike SameProgress (f.proceed scene) (f'.proceed scene) := by
  cases h with
  | home known hheaters halarm halerts hble =>
    refine (Pending.proceed_alike scene hheaters).bind ?_
    intro heaters heaters' hheaters
    refine (Pending.proceed_alike scene halarm).bind ?_
    intro alarm alarm' halarm
    refine (Pending.proceed_alike scene halerts).bind ?_
    intro alerts alerts' halerts
    refine (Pending.proceed_alike scene hble).bind ?_
    intro ble ble' hble
    rw [hheaters.outcome?_eq, halarm.outcome?_eq, halerts.outcome?_eq, hble.outcome?_eq]
    split
    · refine (settleHome_alike known _ _ _ _).bind ?_
      rintro learned _ rfl
      exact Act.alike_pure (.ended learned)
    · exact Act.alike_pure (.underway (.home known hheaters halarm halerts hble))
  | plain view h =>
    refine (Pending.proceed_alike scene h).bind ?_
    intro q q' hq
    rw [hq.outcome?_eq]
    cases q.outcome? with
    | none => exact Act.alike_pure (.underway (.plain view hq))
    | some outcome =>
      refine (Act.alike_settle view.call outcome).bind ?_
      rintro taken _ rfl
      exact Act.alike_pure (.ended _)
  | device did h => exact proceedDevice_alike scene did h
  | controller state owner h => exact proceedOwner_alike scene state owner h

theorem Same.dues {f f' : Fetch} (h : f.Same f') :
    f'.timers.map (·.1) = f.timers.map (·.1) := by
  have hsingle {c : Call} {p p' : Pending c} (h : p.Same p') :
      p'.timer?.toList.map (·.1) = p.timer?.toList.map (·.1) := by
    cases h with
    | waiting due stamp stamp' => rfl
    | answered o => rfl
  cases h with
  | home known hheaters halarm halerts hble =>
    have hlist {ts : List (Option (Nat × Nat))} :
        (ts.filterMap id).map (·.1) = ts.filterMap (Option.map (·.1)) := by
      simp [List.map_filterMap]
    rw [timers, timers, hlist, hlist]
    simp only [List.filterMap_cons, hheaters.dues, halarm.dues, halerts.dues, hble.dues,
      List.filterMap_nil]
  | plain view h => exact hsingle h
  | device did h => exact hsingle h
  | controller state owner h => exact hsingle h

theorem Same.sleepsUntil_iff {f f' : Fetch} (h : f.Same f') (n : Nat) :
    f'.SleepsUntil n ↔ f.SleepsUntil n := by
  have hiff (f : Fetch) : f.SleepsUntil n ↔ f.timers.map (·.1) ≠ [] ∧
      ∀ due ∈ f.timers.map (·.1), n ≤ due := by
    simp [SleepsUntil]
  rw [hiff, hiff, h.dues]

end Fetch

/-! ## Section 3 — tasks -/

theorem Timer.next_due_congr {t t' : Timer} (h : t'.due = t.due) (period now : Nat) :
    (t'.next period now).due = (t.next period now).due := by
  simp only [next, h]

namespace ViewTask

/-- Two tasks of views of one kind that differ in their views and in the numbers of
timers alone. -/
structure Same (t t' : ViewTask) : Prop where
  kind_eq : t'.kind = t.kind
  poll_due : t'.poll.due = t.poll.due
  tick_due : t'.tick.due = t.tick.due
  fetch : Option.Rel Fetch.Same t.fetch t'.fetch

variable {t t' u : ViewTask}

theorem Same.congr (h : t.Same t') (hkind : u.kind = t'.kind) (hpoll : u.poll.due = t'.poll.due)
    (htick : u.tick.due = t'.tick.due) (hfetch : u.fetch = t'.fetch) : t.Same u where
  kind_eq := hkind.trans h.kind_eq
  poll_due := hpoll.trans h.poll_due
  tick_due := htick.trans h.tick_due
  fetch := hfetch ▸ h.fetch

theorem Same.awaitsUntil_iff (h : t.Same t') (n : Nat) :
    t'.AwaitsUntil n ↔ t.AwaitsUntil n := by
  have hfetch := h.fetch
  unfold AwaitsUntil
  generalize t.fetch = fetch at hfetch
  generalize t'.fetch = fetch' at hfetch
  cases hfetch with
  | some hsame => exact hsame.sleepsUntil_iff n
  | none => simp only [h.poll_due]

theorem proceed_alike (h : t.Same t') (scene : Scene) :
    Act.Alike Same (t.proceed scene) (t'.proceed scene) := by
  have hfetch := h.fetch
  unfold proceed
  cases hf : t.fetch with
  | none =>
    rw [hf] at hfetch
    cases hf' : t'.fetch with
    | none => exact Act.alike_pure h
    | some f' =>
      rw [hf'] at hfetch
      cases hfetch
  | some f =>
    rw [hf] at hfetch
    cases hf' : t'.fetch with
    | none =>
      rw [hf'] at hfetch
      cases hfetch
    | some f' =>
      rw [hf'] at hfetch
      cases hfetch with
      | some hsame =>
        refine (Fetch.proceed_alike scene hsame).bind ?_
        intro r r' hr
        cases hr with
        | underway hsame' =>
          exact Act.alike_pure ⟨h.kind_eq, h.poll_due, h.tick_due, .some hsame'⟩
        | ended learned =>
          cases learned with
          | none => exact Act.alike_pure ⟨h.kind_eq, h.poll_due, h.tick_due, .none⟩
          | some snapshot =>
            refine (Act.alike_emit (.commit snapshot)).bind ?_
            rintro _ _ rfl
            exact Act.alike_pure ⟨h.kind_eq, h.poll_due, h.tick_due, .none⟩

theorem startPoll_alike (h : t.Same t') (intervals : Intervals) (scene : Scene) :
    Act.Alike Same (t.startPoll intervals scene) (t'.startPoll intervals scene) := by
  unfold startPoll
  rw [h.kind_eq]
  refine (Fetch.start_alike scene t.kind).bind ?_
  intro f f' hf
  exact Act.alike_pure ⟨rfl, Timer.next_due_congr h.poll_due .., h.tick_due, .some hf⟩

theorem runTick_alike (h : t.Same t') (intervals : Intervals) (scene : Scene) :
    Act.Alike Same (t.runTick intervals scene) (t'.runTick intervals scene) := by
  unfold runTick
  rw [h.tick_due]
  split
  · refine (Act.alike_emit .tick).bind ?_
    rintro _ _ rfl
    exact Act.alike_pure ⟨h.kind_eq, h.poll_due, Timer.next_due_congr h.tick_due .., h.fetch⟩
  · exact Act.alike_pure h

theorem setTimers_alike (h : t.Same t') : Act.Alike Same t.setTimers t'.setTimers := by
  intro turn turn' heffects
  -- a timer of one task may be set already and that of the other not, so the acts do not
  -- go step by step
  obtain ⟨es, hes, hnil, poll, tick, heq, hpoll, htick, _⟩ := t.setTimers_ensures turn
  obtain ⟨es', hes', hnil', poll', tick', heq', hpoll', htick', _⟩ := t'.setTimers_ensures turn'
  subst hnil hnil'
  rw [hes, hes', heq, heq', List.append_nil, List.append_nil]
  exact ⟨heffects, h.kind_eq, hpoll'.trans (h.poll_due.trans hpoll.symm),
    htick'.trans (h.tick_due.trans htick.symm), h.fetch⟩

/-- Two tasks that are the same do the same. -/
theorem move_alike (h : t.Same t') (intervals : Intervals) (scene : Scene) (m : Move) :
    Act.Alike Same (t.move intervals scene m) (t'.move intervals scene m) := by
  cases m with
  | answers => exact proceed_alike h scene
  | poll => exact startPoll_alike h intervals scene
  | tick => exact runTick_alike h intervals scene
  | rest => exact setTimers_alike h

end ViewTask

end HouseBoard
