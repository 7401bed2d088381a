/-
HouseBoard.Proofs.Step — what a step does to one view.

Of a view there is a task, a slot, and whether someone holds it.  Section 1 tells how the
operations of the board look when one asks for the task of a view.  `Step.frame` says that a
step leaves alone every view that it does not concern; the theorems of Section 4 say, for each
kind of happening, what it does to the view that it concerns.  No later proof looks at the
constructors of `Step` for any of this.
-/
import HouseBoard.Proofs.Run

namespace HouseBoard

/-! ## Section 1 — the task of a view -/

namespace Board

variable {b : Board} {id j : ViewId} {t : ViewTask}

theorem task?_id (h : b.task? id = some t) : t.id = id := by
  simpa using List.find?_some h

theorem task?_mem (h : b.task? id = some t) : t ∈ b.tasks := List.mem_of_find?_eq_some h

/-- A task that is changed is found changed, and all others are found as they were. -/
theorem find?_change (ts : List ViewTask) {f : ViewTask → ViewTask}
    (hf : ∀ u, u.id = id → (f u).id = id) :
    (ts.map fun u => if u.id = id then f u else u).find? (·.id = j) =
      if j = id then (ts.find? (·.id = j)).map f else ts.find? (·.id = j) := by
  induction ts with
  | nil => simp
  | cons u us ih =>
    rw [List.map_cons, List.find?_cons, List.find?_cons, ih]
    by_cases hu : u.id = id
    · by_cases hj : j = id
      · simp [hu, hf u hu, hj]
      · simp [hu, hf u hu, hj, Ne.symm hj]
    · by_cases hj : j = id
      · simp [hu, hj]
      · simp [hu, hj]

/-- A task that is taken away is not found, and all others are. -/
theorem find?_without (ts : List ViewTask) :
    (ts.filter (·.id ≠ id)).find? (·.id = j) = if j = id then none
      else ts.find? (·.id = j) := by
  induction ts with
  | nil => simp
  | cons u us ih =>
    by_cases hu : u.id = id
    · rw [List.filter_cons_of_neg (by simpa using hu), ih, List.find?_cons]
      by_cases hj : j = id
      · simp [hj]
      · simp [hu, hj, Ne.symm hj]
    · rw [List.filter_cons_of_pos (by simpa using hu), List.find?_cons, List.find?_cons, ih]
      by_cases hj : j = id
      · simp [hu, hj]
      · simp [hj]

theorem task?_withTask (ht : t.id = id) :
    (b.withTask id t).task? j = if j = id then (b.task? j).map fun _ => t else b.task? j :=
  find?_change b.tasks fun _ _ => ht

theorem task?_withoutTask : (b.withoutTask id).task? j = if j = id then none else b.task? j :=
  find?_without b.tasks

theorem task?_cancel :
    (b.cancel id).task? j =
      if j = id then (b.task? j).map fun u => { u with cancelled := true } else b.task? j :=
  find?_change b.tasks fun _ hu => hu

theorem task?_finish : (b.finish id).task? j = if j = id then none else b.task? j :=
  find?_without b.tasks

theorem task?_mount (b : Board) (kind : ViewKind) (j : ViewId) :
    (b.mount kind).2.task? j = (b.task? j).or (if j = b.nextId then some
      { id := b.nextId
        kind
        poll := ⟨b.now, some b.nextStamp⟩
        tick := ⟨b.now + b.intervals.tick, none⟩ } else none) := by
  simp only [task?, mount, List.find?_append]
  congr 1
  by_cases hj : j = b.nextId
  · simp [hj]
  · simp [hj, Ne.symm hj]

end Board

/-! ## Section 2 — moves -/

@[simp] theorem Act.exec_bind {α β : Type} (m : Act α) (f : α → Act β) (turn : Turn) :
    (m >>= f).exec turn = (f (m.exec turn).1).exec (m.exec turn).2 := rfl

/-- A task stays the task of its view, and no move gives it up. -/
theorem ViewTask.move_exec_same (t : ViewTask) (intervals : Intervals) (scene : Scene)
    (m : Move) (turn : Turn) :
    ((t.move intervals scene m).exec turn).1.id = t.id ∧
      ((t.move intervals scene m).exec turn).1.kind = t.kind ∧
      ((t.move intervals scene m).exec turn).1.cancelled = t.cancelled := by
  cases m with
  | answers =>
    simp only [move, proceed]
    cases t.fetch with
    | none => exact ⟨rfl, rfl, rfl⟩
    | some fetch =>
      simp only [Act.exec_bind]
      split
      · exact ⟨rfl, rfl, rfl⟩
      · exact ⟨rfl, rfl, rfl⟩
      · exact ⟨rfl, rfl, rfl⟩
  | poll => exact ⟨rfl, rfl, rfl⟩
  | tick =>
    simp only [move, runTick]
    split
    · exact ⟨rfl, rfl, rfl⟩
    · exact ⟨rfl, rfl, rfl⟩
  | rest => exact ⟨rfl, rfl, rfl⟩

namespace Board

variable {b : Board} {id j : ViewId} {t : ViewTask} {m : Move}

@[simp] theorem turn_id (b : Board) (t : ViewTask) (m : Move) : (b.turn t m).1.id = t.id :=
  (t.move_exec_same b.intervals (b.scene t.id) m _).1

@[simp] theorem turn_kind (b : Board) (t : ViewTask) (m : Move) :
    (b.turn t m).1.kind = t.kind :=
  (t.move_exec_same b.intervals (b.scene t.id) m _).2.1

@[simp] theorem turn_cancelled (b : Board) (t : ViewTask) (m : Move) :
    (b.turn t m).1.cancelled = t.cancelled :=
  (t.move_exec_same b.intervals (b.scene t.id) m _).2.2

/-- What a move meets, a turn of the task meets. -/
theorem turn_meets {P : List Effect → ViewTask → Prop}
    (h : (t.move b.intervals (b.scene t.id) m).Ensures P) :
    P (b.turn t m).2.effects (b.turn t m).1 := h.exec b.nextStamp

/-- Taking up answers changes nothing but the fetch. -/
theorem turn_answers (b : Board) (t : ViewTask) :
    (b.turn t .answers).1.poll = t.poll ∧ (b.turn t .answers).1.tick = t.tick ∧
      (t.fetch = none → (b.turn t .answers).1.fetch = none) := by
  have hexec : (b.turn t .answers).1 =
    ((t.proceed (b.scene t.id)).exec { nextStamp := b.nextStamp }).1 := rfl
  rw [hexec]
  unfold ViewTask.proceed
  cases hfetch : t.fetch with
  | none => exact ⟨rfl, rfl, fun _ => hfetch⟩
  | some fetch =>
    simp only [Act.exec_bind]
    split
    · exact ⟨rfl, rfl, fun h => nomatch h⟩
    · exact ⟨rfl, rfl, fun h => nomatch h⟩
    · exact ⟨rfl, rfl, fun h => nomatch h⟩

/-- A poll that starts sets the next one, and a fetch is on its way. -/
theorem turn_poll (b : Board) (t : ViewTask) :
    (b.turn t .poll).1.poll = t.poll.next b.intervals.poll b.now ∧
      (b.turn t .poll).1.tick = t.tick ∧
      (b.turn t .poll).1.fetch.isSome = true := by
  obtain ⟨_, f, heq, _⟩ := b.turn_meets (m := .poll)
    (t.startPoll_ensures b.intervals (b.scene t.id))
  rw [heq]
  exact ⟨rfl, rfl, rfl⟩

/-- A tick leaves polls alone. -/
theorem turn_tick (b : Board) (t : ViewTask) :
    (b.turn t .tick).1.poll = t.poll ∧ (b.turn t .tick).1.fetch = t.fetch ∧
      (b.turn t .tick).1.tick = if t.tick.due ≤ b.now then t.tick.next b.intervals.tick b.now
        else t.tick := by
  rcases b.turn_meets (m := .tick)
    (t.runTick_ensures b.intervals (b.scene t.id)) with ⟨hdue, _, heq⟩ | ⟨hdue, _, heq⟩
  · rw [heq]
    exact ⟨rfl, rfl, (if_pos hdue).symm⟩
  · rw [heq]
    exact ⟨rfl, rfl, (if_neg (Nat.not_le_of_lt hdue)).symm⟩

/-- A tick is counted or does nothing. -/
theorem turn_tick_effects (b : Board) (t : ViewTask) :
    (b.turn t .tick).2.effects = [.tick] ∨ (b.turn t .tick).2.effects = [] := by
  rcases b.turn_meets (m := .tick)
    (t.runTick_ensures b.intervals (b.scene t.id)) with ⟨_, hes, _⟩ | ⟨_, hes, _⟩
  · exact .inl hes
  · exact .inr hes

theorem turn_rest_effects (b : Board) (t : ViewTask) : (b.turn t .rest).2.effects = [] :=
  (b.turn_meets (m := .rest) t.setTimers_ensures).1

/-- Setting timers changes nothing but their numbers. -/
theorem turn_rest (b : Board) (t : ViewTask) :
    (b.turn t .rest).1.poll.due = t.poll.due ∧ (b.turn t .rest).1.tick.due = t.tick.due ∧
      (b.turn t .rest).1.fetch = t.fetch ∧
      (t.fetch = none → (b.turn t .rest).1.poll.stamp.isSome = true) ∧
      (b.turn t .rest).1.tick.stamp.isSome = true := by
  obtain ⟨_, poll, tick, heq, hpoll, htick, hpollset, htickset⟩ :=
    b.turn_meets (m := .rest) t.setTimers_ensures
  rw [heq]
  exact ⟨hpoll, htick, rfl, hpollset, htickset⟩

/-- A move that can be performed leaves its entries and the task as it is then. -/
theorem move_of_performs (ht : b.task? id = some t) (hperforms : b.performs t m = true) :
    b.move id m =
      ((b.stamped (b.turn t m).2.nextStamp).recorded id (b.turn t m).2.effects).withTask id
        (b.turn t m).1 := by
  have hid := task?_id ht
  subst hid
  have hall := performAll_eq hperforms
  unfold move
  rw [ht]
  simp only [stamped] at hall
  simp only [hall]
  rfl

/-- A task that cannot go on leaves the entries of its effects up to the failure that it cannot
report, and is gone. -/
theorem move_of_failure (ht : b.task? id = some t) (hperforms : b.performs t m = false) :
    b.move id m =
        ((b.stamped (b.turn t m).2.nextStamp).recorded id
          (Effect.upToReport (b.turn t m).2.effects)).withoutTask id ∧
      ∃ es c e, Effect.upToReport (b.turn t m).2.effects = es ++ [.fail c e] := by
  have hid := task?_id ht
  subst hid
  obtain ⟨hes, hlast⟩ := performAll_of_false hperforms
  have hall : (b.stamped (b.turn t m).2.nextStamp).performAll t.id (b.turn t m).2.effects =
      (false, (b.stamped (b.turn t m).2.nextStamp).recorded t.id
        (Effect.upToReport (b.turn t m).2.effects)) :=
    Prod.ext hperforms hes
  refine ⟨?_, hlast⟩
  unfold move
  rw [ht]
  simp only [stamped] at hall
  simp only [hall]
  rfl

/-- A task that cannot go on leaves the entries of the effects up to the last that is
performed, and is gone. -/
theorem move_of_not_performs (ht : b.task? id = some t) (hperforms : b.performs t m = false) :
    ∃ es, es <+: (b.turn t m).2.effects ∧
      b.move id m = ((b.stamped (b.turn t m).2.nextStamp).recorded id es).withoutTask id :=
  ⟨_, Effect.upToReport_prefix _, (move_of_failure ht hperforms).1⟩

end Board

/-! ## Section 3 — the other views -/

namespace Board

variable {b : Board} {id j : ViewId} {kind : ViewKind}

/-- An errand has nothing to do with views. -/
theorem attend_frame (b : Board) (e : Errand) :
    (b.attend e).tasks = b.tasks ∧ (b.attend e).store = b.store ∧ (b.attend e).held = b.held ∧
      (b.attend e).mounted = b.mounted ∧ (b.attend e).nextId = b.nextId ∧
      (b.attend e).now = b.now ∧
      (b.attend e).intervals = b.intervals ∧ (b.attend e).policy = b.policy := by
  cases e with
  | report e =>
    simp only [attend, report]
    split
    · exact ⟨rfl, rfl, rfl, rfl, rfl, rfl, rfl, rfl⟩
    · exact ⟨rfl, rfl, rfl, rfl, rfl, rfl, rfl, rfl⟩
  | _ => exact ⟨rfl, rfl, rfl, rfl, rfl, rfl, rfl, rfl⟩

theorem release_of_mem (h : id ∈ b.held) :
    (b.release id).2 = { b.cancel id with held := b.held.erase id } := by
  simp [release, h]

theorem ensureMounted_of_none (h : b.mounted.lookup kind = none) :
    b.ensureMounted kind =
      (b.nextId, { (b.mount kind).2 with mounted := b.mounted ++ [(kind, b.nextId)] }) := by
  simp only [ensureMounted, h]
  rfl

theorem release_of_not_mem (h : id ∉ b.held) : (b.release id).2 = b := by
  simp [release, h]

theorem ensureMounted_of_some (h : b.mounted.lookup kind = some id) :
    b.ensureMounted kind = (id, b) := by
  simp only [ensureMounted, h]

theorem mem_of_lookup (h : b.mounted.lookup kind = some id) : (kind, id) ∈ b.mounted := by
  obtain ⟨l₁, l₂, heq, _⟩ := List.lookup_eq_some_iff.mp h
  simp [heq]

end Board

namespace Step

variable {b b' : Board} {x : Happening} {id : ViewId}

/-- A step leaves the task and the slot of every other view alone, and nobody gets
hold of one. -/
theorem frame (h : Step b x b') (hx : x.isOf id = false) :
    b'.task? id = b.task? id ∧ b'.store.get? id = b.store.get? id ∧
    (id ∈ b'.handles → id ∈ b.handles) := by
  simp only [Happening.isOf, beq_eq_false_iff_ne, ne_eq] at hx
  cases h with
  | attend e =>
    obtain ⟨htasks, hstore, hheld, hmounted, _⟩ := b.attend_frame e
    refine ⟨?_, ?_, ?_⟩
    · rw [Board.task?, htasks]
      rfl
    · rw [hstore]
    · rw [Board.handles, hheld, hmounted]
      exact fun h => h
  | hold kind =>
    have hne : id ≠ b.nextId := fun h => hx (by rw [h]; rfl)
    refine ⟨?_, ?_, ?_⟩
    · exact (Board.task?_mount b kind id).trans (by rw [if_neg hne, Option.or_none])
    · exact (Store.get?_put b.store b.nextId id _).trans (if_neg hne)
    · intro hmem
      exact (List.mem_cons.mp hmem).resolve_left hne
  | @ensure kind hkind =>
    have hne : id ≠ b.nextId := fun h => hx (by rw [h]; rfl)
    rw [Board.ensureMounted_of_none hkind]
    refine ⟨?_, ?_, ?_⟩
    · exact (Board.task?_mount b kind id).trans (by rw [if_neg hne, Option.or_none])
    · exact (Store.get?_put b.store b.nextId id _).trans (if_neg hne)
    · simp only [Board.handles, Board.mount, List.map_append, List.mem_append,
        List.map_cons, List.map_nil, List.mem_singleton, hne, or_false]
      exact fun h => h
  | @release j hj =>
    have hne : id ≠ j := fun h => hx (by rw [h]; rfl)
    rw [Board.release_of_mem hj]
    refine ⟨?_, rfl, ?_⟩
    · exact Board.task?_cancel.trans (if_neg hne)
    · simp only [Board.handles, Board.cancel, List.mem_append]
      exact Or.imp_left List.mem_of_mem_erase
  | @abandon kind j hkind =>
    have hne : id ≠ j := fun h => hx (by rw [h]; rfl)
    refine ⟨?_, rfl, ?_⟩
    · exact Board.task?_cancel.trans (if_neg hne)
    · simp only [Board.handles, Board.abandon, Board.cancel, List.mem_append]
      refine Or.imp_right fun hmem => ?_
      obtain ⟨e, he, rfl⟩ := List.mem_map.mp hmem
      exact List.mem_map_of_mem (List.mem_filter.mp he).1
  | @leave j t ht hcancelled =>
    have hne : id ≠ j := fun h => hx (by rw [h]; rfl)
    refine ⟨?_, ?_, fun h => h⟩
    · exact Board.task?_finish.trans (if_neg hne)
    · exact (Store.get?_remove b.store j id).trans (if_neg hne)
  | @move j t m ht hcancelled hm hperforms =>
    have hne : id ≠ j := fun h => hx (by rw [h]; rfl)
    rw [Board.move_of_performs ht hperforms]
    refine ⟨?_, ?_, fun h => h⟩
    · exact (Board.task?_withTask ((b.turn_id t m).trans (Board.task?_id ht))).trans
        (if_neg hne)
    · exact (Store.get?_update b.store j id _).trans (if_neg hne)
  | @fall j t m ht hcancelled hm hperforms =>
    have hne : id ≠ j := fun h => hx (by rw [h]; rfl)
    obtain ⟨es, _, hes⟩ := Board.move_of_not_performs ht hperforms
    rw [hes]
    refine ⟨?_, ?_, fun h => h⟩
    · exact Board.task?_withoutTask.trans (if_neg hne)
    · exact (Store.get?_update b.store j id _).trans (if_neg hne)
  | pass hn hsleeps => exact ⟨rfl, rfl, fun h => h⟩

end Step

/-! ## Section 4 — the view that is concerned -/

namespace Step

variable {b b' : Board} {id : ViewId}

/-- A view is mounted under the next number; its first poll is due at once. -/
theorem of_mounted {kind : ViewKind} {n : Nat} (h : Step b (.mounted id kind n) b') :
    id = b.nextId ∧ n = b.now ∧ b'.nextId = b.nextId + 1 ∧ b'.store.get? id = some { kind } ∧
      ∃ stamp, b'.task? id = (b.task? id).or (some
        { id, kind, poll := ⟨b.now, some stamp⟩,
          tick := ⟨b.now + b.intervals.tick, none⟩ }) := by
  cases h with
  | hold kind =>
    refine ⟨rfl, rfl, rfl, ?_, b.nextStamp, ?_⟩
    · exact (Store.get?_put b.store b.nextId b.nextId _).trans (if_pos rfl)
    · exact (Board.task?_mount b kind b.nextId).trans (by rw [if_pos rfl])
  | ensure hkind =>
    rw [Board.ensureMounted_of_none hkind]
    refine ⟨rfl, rfl, rfl, ?_, b.nextStamp, ?_⟩
    · exact (Store.get?_put b.store b.nextId b.nextId _).trans (if_pos rfl)
    · exact (Board.task?_mount b kind b.nextId).trans (by rw [if_pos rfl])

/-- A view that is given up keeps its slot for now; its task is to end. -/
theorem of_dropped (h : Step b (.dropped id) b') :
    id ∈ b.handles ∧ b'.task? id = (b.task? id).map (fun t => { t with cancelled := true }) ∧
      b'.store = b.store ∧ b'.books = b.books := by
  cases h with
  | release hid =>
    rw [Board.release_of_mem hid]
    exact ⟨List.mem_append_left _ hid, Board.task?_cancel.trans (if_pos rfl), rfl, rfl⟩
  | abandon hkind =>
    refine ⟨List.mem_append_right _ ?_, Board.task?_cancel.trans (if_pos rfl), rfl, rfl⟩
    exact List.mem_map_of_mem (f := (·.2)) (Board.mem_of_lookup hkind)

/-- A task that has ended takes its slot with it. -/
theorem of_left (h : Step b (.left id) b') :
    (∃ t, b.task? id = some t ∧ t.cancelled = true) ∧ b'.task? id = none ∧
      b'.store.get? id = none ∧
      b'.handles = b.handles ∧ b'.books = b.books := by
  cases h with
  | leave ht hcancelled =>
    refine ⟨⟨_, ht, hcancelled⟩, ?_, ?_, rfl, rfl⟩
    · exact Board.task?_finish.trans (if_pos rfl)
    · exact (Store.get?_remove b.store id id).trans (if_pos rfl)

/-- A move is one turn of a task that was not given up; its effects leave their entries. -/
theorem of_moved {m : Move} {w : Moment} {es : List Effect} {ended : Bool}
    (h : Step b (.moved id m w es ended) b') :
    ∃ t, b.task? id = some t ∧ t.cancelled = false ∧ t.Allows b.now m ∧ w = b.moment ∧
      es = (b.turn t m).2.effects ∧ ended = (t.fetch.isSome && (b.turn t m).1.fetch.isNone) ∧
      b'.task? id = some (b.turn t m).1 ∧
      b'.store.get? id = (b.store.get? id).map (fun slot => es.foldl (Slot.take b.wall) slot) ∧
      b'.books = es.foldl (Books.post b.wall) b.books := by
  cases h with
  | @move _ t _ ht hcancelled hm hperforms =>
    refine ⟨t, ht, hcancelled, hm, rfl, rfl, rfl, ?_⟩
    rw [Board.move_of_performs ht hperforms]
    refine ⟨?_, ?_, rfl⟩
    · refine (Board.task?_withTask ((b.turn_id t m).trans (Board.task?_id ht))).trans ?_
      rw [if_pos rfl]
      exact congrArg _ ht
    · exact (Store.get?_update b.store id id _).trans (if_pos rfl)

/-- A task that cannot go on is gone; some of its effects have left their entries. -/
theorem of_fell {w : Moment} (h : Step b (.fell id w) b') :
    w = b.moment ∧ b'.task? id = none ∧ ¬ b.notifier.Lasts b.wall ∧
      ∃ t m es, b.task? id = some t ∧ t.cancelled = false ∧ es <+: (b.turn t m).2.effects ∧
        b'.store.get? id = (b.store.get? id).map fun slot =>
          es.foldl (Slot.take b.wall) slot := by
  cases h with
  | @fall _ t m ht hcancelled hm hperforms =>
    obtain ⟨es, hpart, hes⟩ := Board.move_of_not_performs ht hperforms
    refine ⟨rfl, ?_, ?_, t, m, es, ht, hcancelled, hpart, ?_⟩
    · rw [hes]
      exact Board.task?_withoutTask.trans (if_pos rfl)
    · intro hlasts
      have hall := Board.performAll_fst_of_lasts
        (b := b.stamped (b.turn t m).2.nextStamp) hlasts t.id
        (b.turn t m).2.effects
      rw [Board.performs, hall] at hperforms
      cases hperforms
    · rw [hes]
      exact (Store.get?_update b.store id id _).trans (if_pos rfl)

/-- A task cannot go on after a failure that it is to report: it has done everything up
to that failure. -/
theorem failure_of_fell {w : Moment} (h : Step b (.fell id w) b') :
    w = b.moment ∧ ∃ t m, b.task? id = some t ∧ t.cancelled = false ∧ t.Allows b.now m ∧
      (∃ es c e, Effect.upToReport (b.turn t m).2.effects = es ++ [.fail c e]) ∧
      b'.store.get? id = (b.store.get? id).map (fun slot =>
        (Effect.upToReport (b.turn t m).2.effects).foldl (Slot.take b.wall) slot) ∧
      b'.books = (Effect.upToReport (b.turn t m).2.effects).foldl
        (Books.post b.wall) b.books := by
  cases h with
  | @fall _ t m ht hcancelled hm hperforms =>
    obtain ⟨hmove, hlast⟩ := Board.move_of_failure ht hperforms
    refine ⟨rfl, t, m, ht, hcancelled, hm, hlast, ?_, ?_⟩
    · rw [hmove]
      exact (Store.get?_update b.store id id _).trans (if_pos rfl)
    · rw [hmove]
      rfl

theorem of_attended {e : Errand} {wall : Int} (h : Step b (.attended e wall) b') :
    wall = b.wall ∧ b' = b.attend e := by
  cases h with
  | attend e => exact ⟨rfl, rfl⟩

/-- Time goes on while all tasks sleep. -/
theorem of_passed {n : Nat} (h : Step b (.passed n) b') :
    b.now < n ∧ b.SleepsUntil n ∧ b' = { b with now := n } := by
  cases h with
  | pass hn hsleeps => exact ⟨hn, hsleeps, rfl⟩

/-! ## Section 5 — what is preserved -/

/-- Time goes on by passing, and by nothing else. -/
theorem now_eq {x : Happening} (h : Step b x b') (hx : ∀ n, x ≠ .passed n) :
    b'.now = b.now := by
  cases h with
  | attend e => exact (b.attend_frame e).2.2.2.2.2.1
  | hold kind => rfl
  | ensure hkind => rw [Board.ensureMounted_of_none hkind]; rfl
  | release hid => rw [Board.release_of_mem hid]; rfl
  | abandon hkind => rfl
  | leave ht hcancelled => rfl
  | move ht hcancelled hm hperforms => rw [Board.move_of_performs ht hperforms]; rfl
  | fall ht hcancelled hm hperforms =>
    obtain ⟨es, _, hes⟩ := Board.move_of_not_performs ht hperforms
    rw [hes]
    rfl
  | pass hn hsleeps => exact absurd rfl (hx _)

/-- The time stays as it is, or all tasks sleep while it goes on. -/
theorem now_cases {x : Happening} (h : Step b x b') :
    b'.now = b.now ∨ ∃ n, x = .passed n ∧ b.now < n ∧ b.SleepsUntil n ∧
    b' = { b with now := n } := by
  by_cases hpass : ∃ n, x = .passed n
  · obtain ⟨n, rfl⟩ := hpass
    exact .inr ⟨n, rfl, h.of_passed⟩
  · exact .inl (h.now_eq fun n hn => hpass ⟨n, hn⟩)

theorem now_le {x : Happening} (h : Step b x b') : b.now ≤ b'.now := by
  rcases h.now_cases with hnow | ⟨n, _, hn, _, rfl⟩
  · exact Nat.le_of_eq hnow.symm
  · exact Nat.le_of_lt hn

/-- Numbers are given out in order. -/
theorem nextId_le {x : Happening} (h : Step b x b') : b.nextId ≤ b'.nextId := by
  cases h with
  | attend e => exact Nat.le_of_eq (b.attend_frame e).2.2.2.2.1.symm
  | hold kind => exact Nat.le_succ _
  | ensure hkind => rw [Board.ensureMounted_of_none hkind]; exact Nat.le_succ _
  | release hid => rw [Board.release_of_mem hid]; exact Nat.le_refl _
  | abandon hkind => exact Nat.le_refl _
  | leave ht hcancelled => exact Nat.le_refl _
  | move ht hcancelled hm hperforms =>
    rw [Board.move_of_performs ht hperforms]; exact Nat.le_refl _
  | fall ht hcancelled hm hperforms =>
    obtain ⟨es, _, hes⟩ := Board.move_of_not_performs ht hperforms
    rw [hes]
    exact Nat.le_refl _
  | pass hn hsleeps => exact Nat.le_refl _

/-- What is set at the start does not change. -/
theorem settings_eq {x : Happening} (h : Step b x b') :
    b'.intervals = b.intervals ∧ b'.policy = b.policy := by
  cases h with
  | attend e => exact (b.attend_frame e).2.2.2.2.2.2
  | hold kind => exact ⟨rfl, rfl⟩
  | ensure hkind => rw [Board.ensureMounted_of_none hkind]; exact ⟨rfl, rfl⟩
  | release hid => rw [Board.release_of_mem hid]; exact ⟨rfl, rfl⟩
  | abandon hkind => exact ⟨rfl, rfl⟩
  | leave ht hcancelled => exact ⟨rfl, rfl⟩
  | move ht hcancelled hm hperforms =>
    rw [Board.move_of_performs ht hperforms]; exact ⟨rfl, rfl⟩
  | fall ht hcancelled hm hperforms =>
    obtain ⟨es, _, hes⟩ := Board.move_of_not_performs ht hperforms
    rw [hes]
    exact ⟨rfl, rfl⟩
  | pass hn hsleeps => exact ⟨rfl, rfl⟩

/-- The script changes by an errand, and by nothing else. -/
theorem script_eq {x : Happening} (h : Step b x b')
    (hx : ∀ s wall, x ≠ .attended (.script s) wall) : b'.script = b.script := by
  cases h with
  | attend e =>
    cases e with
    | script s => exact absurd rfl (hx s _)
    | report e =>
      simp only [Board.attend, Board.report]
      split <;> rfl
    | _ => rfl
  | hold kind => rfl
  | ensure hkind => rw [Board.ensureMounted_of_none hkind]; rfl
  | release hid => rw [Board.release_of_mem hid]; rfl
  | abandon hkind => rfl
  | leave ht hcancelled => rfl
  | move ht hcancelled hm hperforms => rw [Board.move_of_performs ht hperforms]; rfl
  | fall ht hcancelled hm hperforms =>
    obtain ⟨es, _, hes⟩ := Board.move_of_not_performs ht hperforms
    rw [hes]
    rfl
  | pass hn hsleeps => rfl

end Step

end HouseBoard
