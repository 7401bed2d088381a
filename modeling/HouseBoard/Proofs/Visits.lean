/-
HouseBoard.Proofs.Visits — what the polls of a device do, in which order.

Each poll of a device is a visit: the device is asked first, and its own answer alone says which
controller is asked next, if one is asked at all; nothing is kept unless both have answered, and
then what they answered in this visit is kept together.  What the task of a view does is told as
deeds, each with the moment at which it is done, since the controller may come to answer
differently at any moment.  `Fetch.Tells` is how far a visit has got while its fetch is on its
way; every move of the task goes on with the visit, and so the deeds of a view are one visit
after the other.
-/
import HouseBoard.Proofs.Cycle

namespace HouseBoard

/-! ## Section 1 — deeds -/

/-- An effect of a task, with the moment at which it comes about. -/
abbrev Deed := Moment × Effect

/-- What is done at a moment for a poll: all effects but the ticks. -/
def Moment.deeds (w : Moment) (es : List Effect) : List Deed :=
  (es.filter (· ≠ .tick)).map fun e => (w, e)

/-- The state that is kept by an effect. -/
def Effect.kept? : Effect → Option Snapshot
  | .commit s => some s
  | _ => none

/-- The last state that is kept by deeds. -/
def Deed.lastKept? (ds : List Deed) : Option Snapshot :=
  (ds.filterMap fun d => d.2.kept?).getLast?

namespace Happening

/-- What the task of a view does for its polls at a happening. -/
def deedsOf (id : ViewId) : Happening → List Deed
  | .moved j _ w es _ => if j = id then w.deeds es else []
  | _ => []

/-- What the task of a view does for its polls in the course of a run. -/
def deeds (id : ViewId) (h : List Happening) : List Deed := h.flatMap (deedsOf id)

variable {id : ViewId}

theorem deeds_append (h h' : List Happening) : deeds id (h ++ h') = deeds id h ++ deeds id h' :=
  List.flatMap_append

@[simp] theorem deeds_moved (m : Move) (w : Moment) (es : List Effect) (ended : Bool) :
    deeds id [.moved id m w es ended] = w.deeds es := by
  simp [deeds, deedsOf]

theorem deeds_of_others {h : List Happening} (hh : ∀ x ∈ h, x.isOf id = false) :
    deeds id h = [] := by
  rw [deeds, List.flatMap_eq_nil_iff]
  intro x hx
  have hother := hh x hx
  simp only [isOf, beq_eq_false_iff_ne, ne_eq] at hother
  cases x with
  | moved j m w es ended => exact if_neg fun h => hother (congrArg some h)
  | _ => rfl

end Happening

@[simp] theorem Moment.deeds_nil (w : Moment) : w.deeds [] = [] := rfl

theorem Moment.deeds_append (w : Moment) (es es' : List Effect) :
    w.deeds (es ++ es') = w.deeds es ++ w.deeds es' := by
  simp [deeds]

theorem Moment.fst_of_mem_deeds (w : Moment) {es : List Effect} {d : Deed}
    (h : d ∈ w.deeds es) : d.1 = w := by
  obtain ⟨e, _, rfl⟩ := List.mem_map.mp h
  rfl

/-- Deeds keep what the effects keep. -/
theorem Moment.filterMap_kept? (w : Moment) (es : List Effect) :
    (w.deeds es).filterMap (fun d => d.2.kept?) = es.filterMap Effect.kept? := by
  rw [deeds, List.filterMap_map, List.filterMap_filter]
  congr 1
  funext e
  cases e <;> simp [Effect.kept?]

/-- A slot holds what effects keep last, and what it held if they keep nothing. -/
theorem Slot.foldl_take_snapshot (wall : Int) (es : List Effect) (slot : Slot) :
    (es.foldl (Slot.take wall) slot).snapshot =
      (es.filterMap Effect.kept?).getLast?.or slot.snapshot := by
  induction es generalizing slot with
  | nil => rfl
  | cons e es ih =>
    rw [List.foldl_cons, ih]
    cases e with
    | commit s =>
      have hkept : (Effect.commit s :: es).filterMap Effect.kept? =
        s :: es.filterMap Effect.kept? := rfl
      rw [hkept, List.getLast?_cons]
      cases (es.filterMap Effect.kept?).getLast? with
      | none => rfl
      | some s' => rfl
    | _ => simp [Effect.kept?, take, Slot.tick]

/-! ## Section 2 — visits -/

/-- The names by which a device names a controller. -/
def Owner.names : Owner → List String
  | .garage => ["garage"]
  | .heaters => ["heaters"]
  | .alarm => ["alarm", "alarms"]

/-- A device is owned by the controller that it names, and by none if it names none. -/
theorem Owner.of?_eq_some_iff {state : DeviceState} {owner : Owner} :
    Owner.of? state = some owner ↔ ∃ name ∈ owner.names, state.uiViewName = some name := by
  cases hname : state.uiViewName with
  | none => simp [of?, hname]
  | some name =>
    simp only [of?, hname, Option.bind_some, ofName?, Option.some.injEq]
    split <;> cases owner <;> simp_all [names]

theorem Owner.ne_of_of?_eq_none {state : DeviceState} (h : Owner.of? state = none) :
    ∀ owner : Owner, ∀ name ∈ owner.names, state.uiViewName ≠ some name := by
  intro owner name hname hview
  rw [of?_eq_some_iff.mpr ⟨name, hname, hview⟩] at h
  cases h

/-- The poll of a device from its beginning to its end. -/
inductive Visit (did : DeviceRef) : List Deed → Prop where
  /-- The device does not answer; no controller is asked. -/
  | refused {asked heard taken : Moment} {e : RpcError}
      (hdevice : heard.script.outcome (.device did) = .error e) :
      Visit did [(asked, .start (.device did)), (heard, .complete (.device did)),
        (taken, .fail (.device did) e)]
  /-- The device answers and names no controller; its state is kept alone. -/
  | alone {asked heard taken : Moment} {state : DeviceState}
      (hdevice : heard.script.outcome (.device did) = .ok state)
      (hnone : ∀ owner : Owner, ∀ name ∈ owner.names, state.uiViewName ≠ some name) :
      Visit did [(asked, .start (.device did)), (heard, .complete (.device did)),
        (taken, .succeed (.device did)), (taken, .commit (.device ⟨state, none⟩))]
  /-- The device answers, and the controller that it names in this answer does not. -/
  | deserted {asked heard taken answered : Moment} {state : DeviceState} {owner : Owner}
      {name : String} {e : RpcError} (hdevice : heard.script.outcome (.device did) = .ok state)
      (hname : name ∈ owner.names) (howner : state.uiViewName = some name)
      (hlive : answered.script.outcome owner.call = .error e) :
      Visit did [(asked, .start (.device did)), (heard, .complete (.device did)),
        (taken, .succeed (.device did)), (taken, .start owner.call),
        (answered, .complete owner.call), (answered, .fail owner.call e)]
  /-- The device answers, and then the controller that it names in this answer does; both
  answers are kept. -/
  | whole {asked heard taken answered : Moment} {state : DeviceState} {owner : Owner}
      {name : String} {live : owner.call.Reply}
      (hdevice : heard.script.outcome (.device did) = .ok state) (hname : name ∈ owner.names)
      (howner : state.uiViewName = some name)
      (hlive : answered.script.outcome owner.call = .ok live) :
      Visit did [(asked, .start (.device did)), (heard, .complete (.device did)),
        (taken, .succeed (.device did)), (taken, .start owner.call),
        (answered, .complete owner.call), (answered, .succeed owner.call),
        (answered, .commit (.device ⟨state, some (owner.live live)⟩))]

namespace Visit

variable {did : DeviceRef} {v : List Deed}

/-- When a visit begins. -/
def began? (v : List Deed) : Option Nat := v.head?.map fun d => d.1.now

/-- When a visit ends. -/
def ended? (v : List Deed) : Option Nat := v.getLast?.map fun d => d.1.now

/-- The controller of a device is asked by another call than the device. -/
theorem device_ne (did : DeviceRef) (owner : Owner) : Call.device did ≠ owner.call := by
  cases owner <;> simp [Owner.call]

/-- A visit keeps a state exactly if all its calls have succeeded. -/
theorem keeps_iff (h : Visit did v) :
    (∃ w s, (w, .commit s) ∈ v) ↔ ∀ w c, (w, .start c) ∈ v → ∃ w', (w', .succeed c) ∈ v := by
  cases h with
  | refused => simp
  | alone => simp
  | @deserted _ _ taken _ _ owner =>
    simp only [List.mem_cons, Prod.mk.injEq, reduceCtorEq, and_false, List.not_mem_nil,
      or_self, exists_false, false_iff, Effect.start.injEq, Effect.succeed.injEq,
      false_or, or_false]
    intro hall
    obtain ⟨_, _, heq⟩ := hall taken owner.call (.inr ⟨rfl, rfl⟩)
    exact device_ne did owner heq.symm
  | @whole _ _ taken answered =>
    simp only [List.mem_cons, Prod.mk.injEq, reduceCtorEq, and_false, List.not_mem_nil, or_self,
      false_or, or_false, Effect.start.injEq, Effect.succeed.injEq, Effect.commit.injEq]
    refine iff_of_true ⟨_, _, rfl, rfl⟩ ?_
    rintro _ _ (⟨_, rfl⟩ | ⟨_, rfl⟩)
    · exact ⟨taken, .inl ⟨rfl, rfl⟩⟩
    · exact ⟨answered, .inr ⟨rfl, rfl⟩⟩

/-- A visit does not end with a call. -/
theorem isCall_last (h : Visit did v) {d : Deed} (hd : v.getLast? = some d) :
    d.2.isCall = false := by
  cases h <;> cases hd <;> rfl

/-- A visit keeps nothing before its end. -/
theorem keeps_nothing_before {ds rest : List Deed} (h : Visit did (ds ++ rest))
    (hrest : rest ≠ []) : ds.filterMap (fun d => d.2.kept?) = [] := by
  have hinit : (ds ++ rest).dropLast.filterMap (fun d => d.2.kept?) = [] := by
    generalize ds ++ rest = v at h
    cases h <;> rfl
  rw [List.dropLast_append_of_ne_nil hrest, List.filterMap_append,
    List.append_eq_nil_iff] at hinit
  exact hinit.1

/-- A visit that has asked a controller can go on to its end. -/
theorem exists_of_sent {heard : Moment} {state : DeviceState} {owner : Owner}
    (hdevice : heard.script.outcome (.device did) = .ok state)
    (howner : Owner.of? state = some owner) (asked taken : Moment) :
    ∃ rest, rest ≠ [] ∧ Visit did
      ([(asked, .start (.device did)), (heard, .complete (.device did)),
        (taken, .succeed (.device did)), (taken, .start owner.call)] ++ rest) := by
  obtain ⟨name, hname, hview⟩ := Owner.of?_eq_some_iff.mp howner
  cases hlive : taken.script.outcome owner.call with
  | error e => exact ⟨_, List.cons_ne_nil _ _, .deserted hdevice hname hview hlive⟩
  | ok live => exact ⟨_, List.cons_ne_nil _ _, .whole hdevice hname hview hlive⟩

/-- A visit that has heard from its device can go on to its end. -/
theorem exists_of_heard (did : DeviceRef) (asked heard : Moment) : ∃ rest, rest ≠ [] ∧ Visit did
    ([(asked, .start (.device did)), (heard, .complete (.device did))] ++ rest) := by
  cases hdevice : heard.script.outcome (.device did) with
  | error e => exact ⟨[(heard, _)], List.cons_ne_nil _ _, .refused hdevice⟩
  | ok state =>
    cases howner : Owner.of? state with
    | none =>
      exact ⟨[(heard, _), (heard, _)], List.cons_ne_nil _ _,
        .alone hdevice (Owner.ne_of_of?_eq_none howner)⟩
    | some owner =>
      obtain ⟨rest, _, hrest⟩ := exists_of_sent hdevice howner asked heard
      exact ⟨_, List.cons_ne_nil _ _, hrest⟩

end Visit

/-- How far a visit has got while its fetch is on its way. -/
inductive Fetch.Tells (did : DeviceRef) : Fetch → List Deed → Prop where
  | asked {asked : Moment} {due stamp : Nat} :
      Tells did (.device did (.waiting due stamp)) [(asked, .start (.device did))]
  | heard {asked heard : Moment} :
      Tells did (.device did (.answered (heard.script.outcome (.device did))))
        [(asked, .start (.device did)), (heard, .complete (.device did))]
  | sent {asked heard taken : Moment} {state : DeviceState} {owner : Owner} {due stamp : Nat}
      (hdevice : heard.script.outcome (.device did) = .ok state)
      (howner : Owner.of? state = some owner) :
      Tells did (.controller state owner (.waiting due stamp))
        [(asked, .start (.device did)), (heard, .complete (.device did)),
          (taken, .succeed (.device did)), (taken, .start owner.call)]

namespace Fetch.Tells

variable {did : DeviceRef} {f : Fetch} {ds : List Deed}

/-- A fetch that is on its way has begun its visit. -/
theorem ne_nil (h : f.Tells did ds) : ds ≠ [] := by
  cases h <;> exact List.cons_ne_nil _ _

/-- A visit whose fetch is on its way has not come to its end. -/
theorem not_visit (h : f.Tells did ds) : ¬ Visit did ds := by
  intro hvisit
  -- a visit ends when an answer is taken up, and a fetch waits after a call
  have hlast : ∃ d, ds.getLast? = some d ∧ d.2.isCall = true := by
    cases h <;> exact ⟨_, rfl, rfl⟩
  obtain ⟨d, hd, hcall⟩ := hlast
  rw [hvisit.isCall_last hd] at hcall
  cases hcall

/-- A visit whose fetch is on its way can go on to its end. -/
theorem exists_rest (h : f.Tells did ds) : ∃ rest, rest ≠ [] ∧ Visit did (ds ++ rest) := by
  cases h with
  | @asked asked _ _ =>
    obtain ⟨rest, _, hrest⟩ := Visit.exists_of_heard did asked asked
    exact ⟨_, List.cons_ne_nil _ _, hrest⟩
  | heard => exact Visit.exists_of_heard did _ _
  | sent hdevice howner => exact Visit.exists_of_sent hdevice howner _ _

end Fetch.Tells

/-! ## Section 3 — the fetch of a device -/

/-- What a piece of the fetch of a device has to meet: it tells how far the visit has got, or
has ended the visit. -/
def Progress.Visits (did : DeviceRef) (ds : List Deed) (w : Moment) (es : List Effect) :
    Progress → Prop
  | .underway f => f.Tells did (ds ++ w.deeds es)
  | .ended learned => Visit did (ds ++ w.deeds (es ++ (learned.map Effect.commit).toList))

/-- A piece of a fetch that follows on another one. -/
theorem Progress.Visits.after {did : DeviceRef} {ds : List Deed} {w : Moment}
    {es es' : List Effect} {r : Progress} (h : Progress.Visits did (ds ++ w.deeds es) w es' r) :
    Progress.Visits did ds w (es ++ es') r := by
  cases r with
  | underway f => simpa [Progress.Visits, Moment.deeds_append] using h
  | ended learned => simpa [Progress.Visits, Moment.deeds_append] using h

section

variable {did : DeviceRef} {asked heard taken w : Moment} {scene : Scene} {state : DeviceState}
  {owner : Owner}

/-- A poll of a device begins by asking the device. -/
theorem Fetch.start_tells (did : DeviceRef) (hscript : w.script = scene.script) :
    (Fetch.start scene (.device did)).Ensures fun es f => f.Tells did (w.deeds es) := by
  refine (Pending.start_cases scene (.device did)).bind ?_
  rintro es p (⟨ms, stamp, _, rfl, rfl⟩ | ⟨_, rfl, rfl⟩)
  · exact Act.ensures_pure .asked
  · refine Act.ensures_pure ?_
    rw [← hscript]
    exact .heard

/-- The controller of a device answers, and the visit ends. -/
theorem Fetch.proceedOwner_answered (hdevice : heard.script.outcome (.device did) = .ok state)
    (howner : Owner.of? state = some owner) (hscript : w.script = scene.script) :
    (Fetch.proceedOwner scene state owner (.answered (scene.script.outcome owner.call))).Ensures
      (Progress.Visits did
        [(asked, .start (.device did)), (heard, .complete (.device did)),
          (taken, .succeed (.device did)), (taken, .start owner.call),
          (w, .complete owner.call)] w) := by
  obtain ⟨name, hname, hview⟩ := Owner.of?_eq_some_iff.mp howner
  rw [← hscript]
  refine (Act.ensures_pure
    (P := fun es p => es = [] ∧ p = .answered (w.script.outcome owner.call)) ⟨rfl, rfl⟩).bind ?_
  rintro _ _ ⟨rfl, rfl⟩
  refine (Act.settle_ensures owner.call _).bind ?_
  rintro _ _ ⟨rfl, rfl⟩
  refine Act.ensures_pure ?_
  cases hlive : w.script.outcome owner.call with
  | error e => exact .deserted hdevice hname hview hlive
  | ok live => exact .whole hdevice hname hview hlive

/-- The controller of a device is waited for. -/
theorem Fetch.proceedOwner_visits (hdevice : heard.script.outcome (.device did) = .ok state)
    (howner : Owner.of? state = some owner) (hscript : w.script = scene.script)
    (due stamp : Nat) :
    (Fetch.proceedOwner scene state owner (.waiting due stamp)).Ensures
      (Progress.Visits did
        [(asked, .start (.device did)), (heard, .complete (.device did)),
          (taken, .succeed (.device did)), (taken, .start owner.call)] w) := by
  refine (Pending.proceed_cases scene _).bind ?_
  rintro es p (⟨rfl, rfl, _⟩ | ⟨_, _, _, _, rfl, rfl⟩)
  · exact Act.ensures_pure (.sent hdevice howner)
  · refine Act.Ensures.mono ?_ fun _ _ => Progress.Visits.after
    exact Fetch.proceedOwner_answered hdevice howner hscript

/-- The device has answered: the visit ends, or goes on with the controller that the
answer names. -/
theorem Fetch.proceedDevice_answered (hscript : w.script = scene.script) :
    (Fetch.proceedDevice scene did (.answered (heard.script.outcome (.device did)))).Ensures
      (Progress.Visits did [(asked, .start (.device did)), (heard, .complete (.device did))]
        w) := by
  refine (Act.ensures_pure (P := fun es p => es = [] ∧ p = .answered (heard.script.outcome _))
    ⟨rfl, rfl⟩).bind ?_
  rintro _ _ ⟨rfl, rfl⟩
  refine (Act.settle_ensures (.device did) _).bind ?_
  rintro _ _ ⟨rfl, rfl⟩
  cases hdevice : heard.script.outcome (.device did) with
  | error e => exact Act.ensures_pure (.refused hdevice)
  | ok state =>
    simp only [Except.toOption]
    cases howner : Owner.of? state with
    | none => exact Act.ensures_pure (.alone hdevice (Owner.ne_of_of?_eq_none howner))
    | some owner =>
      refine Act.Ensures.mono ?_ fun _ _ => Progress.Visits.after
      refine (Pending.start_cases scene owner.call).bind ?_
      rintro es p (⟨ms, stamp, _, rfl, rfl⟩ | ⟨_, rfl, rfl⟩)
      · refine Act.Ensures.mono ?_ fun _ _ => Progress.Visits.after
        exact Fetch.proceedOwner_visits hdevice howner hscript _ _
      · refine Act.Ensures.mono ?_ fun _ _ => Progress.Visits.after
        exact Fetch.proceedOwner_answered hdevice howner hscript

/-- A fetch of a device goes on with the visit. -/
theorem Fetch.Tells.proceed {f : Fetch} {ds : List Deed} (h : f.Tells did ds)
    (hscript : w.script = scene.script) :
    (f.proceed scene).Ensures (Progress.Visits did ds w) := by
  cases h with
  | @asked asked due stamp =>
    refine (Pending.proceed_cases scene _).bind ?_
    rintro es p (⟨rfl, rfl, _⟩ | ⟨_, _, _, _, rfl, rfl⟩)
    · exact Act.ensures_pure .asked
    · refine Act.Ensures.mono ?_ fun _ _ => Progress.Visits.after
      rw [← hscript]
      exact Fetch.proceedDevice_answered hscript
  | heard => exact Fetch.proceedDevice_answered hscript
  | sent hdevice howner => exact Fetch.proceedOwner_visits hdevice howner hscript _ _

end

/-! ## Section 4 — moves of the task -/

namespace ViewTask

/-- How far the last visit of a task has got; there is none if no fetch is on its way. -/
def Tells (t : ViewTask) (did : DeviceRef) (last : List Deed) : Prop :=
  match t.fetch with
  | none => last = []
  | some f => f.Tells did last

variable {t t' : ViewTask} {did : DeviceRef} {last : List Deed}

theorem tells_none (hfetch : t.fetch = none) : t.Tells did [] := by
  rw [Tells, hfetch]

theorem tells_some {f : Fetch} (hfetch : t.fetch = some f) (h : f.Tells did last) :
    t.Tells did last := by
  rwa [Tells, hfetch]

theorem Tells.eq_nil_iff (h : t.Tells did last) : last = [] ↔ t.fetch = none := by
  unfold Tells at h
  split at h
  · rename_i hfetch
    exact iff_of_true h hfetch
  · rename_i f hfetch
    exact iff_of_false h.ne_nil (by simp [hfetch])

theorem Tells.congr (h : t.Tells did last) (hfetch : t'.fetch = t.fetch) :
    t'.Tells did last := by
  rwa [Tells, hfetch]

theorem Tells.not_visit (h : t.Tells did last) (hlast : last ≠ []) : ¬ Visit did last := by
  unfold Tells at h
  split at h
  · exact absurd h hlast
  · exact Fetch.Tells.not_visit h

/-- The last visit of a task can go on to its end. -/
theorem Tells.exists_rest (h : t.Tells did last) :
    last = [] ∨ ∃ rest, rest ≠ [] ∧ Visit did (last ++ rest) := by
  unfold Tells at h
  split at h
  · exact .inl h
  · exact .inr (Fetch.Tells.exists_rest h)

/-- What a move of the task of a device is to the visits: it goes on with the last one, begins
one, or ends it. -/
inductive Visits (did : DeviceRef) (t : ViewTask) (last ds : List Deed) (t' : ViewTask) :
    Move → Prop where
  | stayed {m : Move} (hm : m ≠ .poll) (hsame : t'.fetch.isSome = t.fetch.isSome)
      (htells : t'.Tells did (last ++ ds)) : Visits did t last ds t' m
  | opened (hlast : last = []) (hfetch : t'.fetch.isSome = true) (htells : t'.Tells did ds) :
      Visits did t last ds t' .poll
  | closed (hbefore : t.fetch.isSome = true) (hfetch : t'.fetch = none)
      (hvisit : Visit did (last ++ ds)) :
      Visits did t last ds t' .answers

/-- The answers to the calls of a visit are taken up. -/
theorem proceed_visits {f : Fetch} {w : Moment} {scene : Scene} (hfetch : t.fetch = some f)
    (h : f.Tells did last) (hscript : w.script = scene.script) :
    (t.proceed scene).Ensures fun es t' => t.Visits did last (w.deeds es) t' .answers := by
  have hbefore : t.fetch.isSome = true := by rw [hfetch]; rfl
  simp only [proceed, hfetch]
  refine (h.proceed hscript).bind ?_
  intro es r hr
  cases r with
  | underway f' =>
    refine Act.ensures_pure ?_
    rw [List.append_nil]
    exact .stayed (by decide) hbefore.symm hr
  | ended learned =>
    cases learned with
    | none => exact Act.ensures_pure (.closed hbefore rfl hr)
    | some snapshot =>
      refine (Act.ensures_emit (P := fun es' _ => es' = [.commit snapshot]) rfl).bind ?_
      rintro _ ⟨⟩ rfl
      exact Act.ensures_pure (.closed hbefore rfl hr)

end ViewTask

/-- Each move of the task of a device goes on with its visits. -/
theorem Board.turn_visits {b : Board} {t : ViewTask} {m : Move} {did : DeviceRef}
    {last : List Deed} (hkind : t.kind = .device did) (htells : t.Tells did last)
    (hallows : t.Allows b.now m) :
    t.Visits did last (b.moment.deeds (b.turn t m).2.effects) (b.turn t m).1 m := by
  have hscript : b.moment.script = (b.scene t.id).script := rfl
  cases m with
  | answers =>
    cases hfetch : t.fetch with
    | none =>
      have hidle : (t.proceed (b.scene t.id)).Ensures fun es t' => es = [] ∧ t' = t := by
        simp only [ViewTask.proceed, hfetch]
        exact Act.ensures_pure ⟨rfl, rfl⟩
      obtain ⟨hes, heq⟩ := b.turn_meets (m := .answers) hidle
      rw [hes, heq]
      exact .stayed (by decide) rfl (by rwa [Moment.deeds_nil, List.append_nil])
    | some f =>
      have hf : f.Tells did last := by rwa [ViewTask.Tells, hfetch] at htells
      exact b.turn_meets (m := .answers) (ViewTask.proceed_visits hfetch hf hscript)
  | poll =>
    have hnone := Option.isNone_iff_eq_none.mp (Bool.and_eq_true_iff.mp hallows).1
    have hstart : (t.startPoll b.intervals (b.scene t.id)).Ensures fun es t' =>
        ∃ f, t'.fetch = some f ∧ f.Tells did (b.moment.deeds es) := by
      unfold ViewTask.startPoll
      rw [hkind]
      refine (Fetch.start_tells did hscript).bind fun es f hf => Act.ensures_pure ?_
      rw [List.append_nil]
      exact ⟨f, rfl, hf⟩
    obtain ⟨f, hfetch, hf⟩ := b.turn_meets (m := .poll) hstart
    exact .opened (htells.eq_nil_iff.mpr hnone) (by rw [hfetch]; rfl)
      (ViewTask.tells_some hfetch hf)
  | tick =>
    obtain ⟨_, hfetch, _⟩ := b.turn_tick t
    have hnil : b.moment.deeds (b.turn t .tick).2.effects = [] := by
      rcases b.turn_tick_effects t with hes | hes
      · rw [hes]
        rfl
      · rw [hes]
        rfl
    rw [hnil]
    exact .stayed (by decide) (by rw [hfetch])
      (by rw [List.append_nil]; exact htells.congr hfetch)
  | rest =>
    obtain ⟨_, _, hfetch, _⟩ := b.turn_rest t
    rw [b.turn_rest_effects t, Moment.deeds_nil]
    exact .stayed (by decide) (by rw [hfetch])
      (by rw [List.append_nil]; exact htells.congr hfetch)

/-! ## Section 5 — one visit after the other -/

/-- The deeds of a view are visits to a device, one after the other; the last of them may not
have come to its end. -/
structure Happening.Visited (did : DeviceRef) (id : ViewId) (h : List Happening)
    (visits : List (List Deed)) (last : List Deed) : Prop where
  deeds_eq : deeds id h = visits.flatten ++ last
  visit : ∀ v ∈ visits, Visit did v
  part : last = [] ∨ ∃ rest, rest ≠ [] ∧ Visit did (last ++ rest)
  /-- Each poll that opens begins a visit. -/
  opens_eq : opens id h = (visits ++ [last]).filterMap Visit.began?
  /-- Each poll that closes ends one. -/
  closes_eq : closes id h = visits.filterMap Visit.ended?

/-- A visit begins with the first of its deeds, whatever follows. -/
theorem Visit.began?_append {ds ds' : List Deed} (h : ds ≠ []) :
    began? (ds ++ ds') = began? ds := by
  rw [began?, List.head?_append_of_ne_nil _ h, began?]

theorem Visit.began?_deeds {w : Moment} {es : List Effect} (h : w.deeds es ≠ []) :
    began? (w.deeds es) = some w.now := by
  obtain ⟨d, ds, hds⟩ := List.exists_cons_of_ne_nil h
  have hmem : d ∈ w.deeds es := by rw [hds]; exact List.mem_cons_self
  rw [began?, hds, List.head?_cons, Option.map_some, w.fst_of_mem_deeds hmem]

/-- A visit ends at the moment of its last deeds. -/
theorem Visit.ended?_append {ds : List Deed} {w : Moment} {es : List Effect}
    (h : w.deeds es ≠ []) : ended? (ds ++ w.deeds es) = some w.now := by
  rw [ended?, List.getLast?_append, List.getLast?_eq_some_getLast h, Option.some_or,
    Option.map_some, w.fst_of_mem_deeds (List.getLast_mem h)]

namespace Happening.Visited

variable {did : DeviceRef} {id : ViewId} {h : List Happening} {visits : List (List Deed)}
  {last : List Deed}

/-- What is kept last is kept by a visit that has come to its end. -/
theorem lastKept?_eq (hv : Visited did id h visits last) :
    Deed.lastKept? (deeds id h) = Deed.lastKept? visits.flatten := by
  have hlast : last.filterMap (fun d => d.2.kept?) = [] := by
    rcases hv.part with rfl | ⟨rest, hrest, hvisit⟩
    · rfl
    · exact hvisit.keeps_nothing_before hrest
  rw [hv.deeds_eq, Deed.lastKept?, List.filterMap_append, hlast, List.append_nil,
    Deed.lastKept?]

/-- What is no part of the polls of a view leaves its visits as they are. -/
theorem congr (hv : Visited did id h visits last) {h' : List Happening}
    (hdeeds : deeds id h' = []) (hopens : opens id h' = []) (hcloses : closes id h' = []) :
    Visited did id (h ++ h') visits last where
  deeds_eq := by rw [deeds_append, hdeeds, List.append_nil, hv.deeds_eq]
  visit := hv.visit
  part := hv.part
  opens_eq := by rw [opens_append, hopens, List.append_nil, hv.opens_eq]
  closes_eq := by rw [closes_append, hcloses, List.append_nil, hv.closes_eq]

/-- A move of the task of a view goes on with its visits. -/
theorem move (hv : Visited did id h visits last) {t t' : ViewTask} {m : Move} {w : Moment}
    {es : List Effect} (htells : t.Tells did last)
    (hmove : t.Visits did last (w.deeds es) t' m) :
    ∃ visits' last', Visited did id
      (h ++ [.moved id m w es (t.fetch.isSome && t'.fetch.isNone)]) visits' last' ∧
      t'.Tells did last' := by
  cases hmove with
  | stayed hm hsame htells' =>
    have hopens : opens id [.moved id m w es (t.fetch.isSome && t'.fetch.isNone)] = [] := by
      cases m with
      | poll => exact absurd rfl hm
      | _ => rfl
    have hcloses : closes id [.moved id m w es (t.fetch.isSome && t'.fetch.isNone)] = [] := by
      rw [← hsame]
      cases t'.fetch <;> rfl
    have hbegan : Visit.began? (last ++ w.deeds es) = Visit.began? last := by
      by_cases hlast : last = []
      · have hnone : t'.fetch = none := by
          rw [htells.eq_nil_iff.mp hlast] at hsame
          exact Option.isNone_iff_eq_none.mp (Option.isSome_eq_false_iff.mp hsame)
        rw [htells'.eq_nil_iff.mpr hnone, hlast]
      · exact Visit.began?_append hlast
    refine ⟨visits, last ++ w.deeds es, ⟨?_, hv.visit, htells'.exists_rest, ?_, ?_⟩, htells'⟩
    · rw [deeds_append, deeds_moved, hv.deeds_eq, List.append_assoc]
    · rw [opens_append, hopens, List.append_nil, hv.opens_eq, List.filterMap_append,
        List.filterMap_append]
      simp only [List.filterMap_cons, hbegan]
    · rw [closes_append, hcloses, List.append_nil, hv.closes_eq]
  | opened hlast hfetch htells' =>
    subst hlast
    have hopens : opens id [.moved id .poll w es (t.fetch.isSome && t'.fetch.isNone)] =
        [w.now] := by
      simp [opens, openedAt?]
    have hcloses : closes id [.moved id .poll w es (t.fetch.isSome && t'.fetch.isNone)] =
        [] := by
      rw [Option.isNone_eq_false_iff.mpr hfetch, Bool.and_false]
      rfl
    have hne : w.deeds es ≠ [] := by
      rw [ne_eq, htells'.eq_nil_iff]
      exact Option.isSome_iff_ne_none.mp hfetch
    refine ⟨visits, w.deeds es, ⟨?_, hv.visit, htells'.exists_rest, ?_, ?_⟩, htells'⟩
    · rw [deeds_append, deeds_moved, hv.deeds_eq, List.append_nil]
    · rw [opens_append, hopens, hv.opens_eq, List.filterMap_append, List.filterMap_append,
        List.append_assoc]
      simp only [List.filterMap_cons, Visit.began?_deeds hne]
      rfl
    · rw [closes_append, hcloses, List.append_nil, hv.closes_eq]
  | closed hbefore hfetch hvisit =>
    have hopens : opens id [.moved id .answers w es (t.fetch.isSome && t'.fetch.isNone)] = [] :=
      rfl
    have hcloses : closes id [.moved id .answers w es (t.fetch.isSome && t'.fetch.isNone)] =
        [w.now] := by
      simp [closes, closedAt?, hbefore, hfetch]
    have hlast : last ≠ [] := by
      rw [ne_eq, htells.eq_nil_iff]
      exact Option.isSome_iff_ne_none.mp hbefore
    have hne : w.deeds es ≠ [] := by
      intro hnil
      rw [hnil, List.append_nil] at hvisit
      exact htells.not_visit hlast hvisit
    refine ⟨visits ++ [last ++ w.deeds es], [], ⟨?_, ?_, .inl rfl, ?_, ?_⟩,
      ViewTask.tells_none hfetch⟩
    · rw [deeds_append, deeds_moved, hv.deeds_eq]
      simp
    · intro v hmem
      rcases List.mem_append.mp hmem with hmem | hmem
      · exact hv.visit v hmem
      · rw [List.mem_singleton.mp hmem]
        exact hvisit
    · rw [opens_append, hopens, List.append_nil, hv.opens_eq]
      simp only [List.filterMap_append, List.filterMap_cons, Visit.began?_append hlast]
      exact (List.append_nil _).symm
    · rw [closes_append, hcloses, hv.closes_eq, List.filterMap_append]
      simp only [List.filterMap_cons, Visit.ended?_append hne]
      rfl

end Happening.Visited

/-- The deeds of a view are visits up to now, and its task tells how far the last
one has got. -/
def Board.Visits (b : Board) (id : ViewId) (did : DeviceRef) (h : List Happening) : Prop :=
  ∃ visits last, Happening.Visited did id h visits last ∧
    ∀ t, b.task? id = some t → t.kind = .device did ∧ t.Tells did last

/-- Every step goes on with the visits of a view. -/
theorem Step.visits {b b' : Board} {x : Happening} {id : ViewId} {did : DeviceRef}
    {h : List Happening} (hstep : Step b x b') (htidy : b.Tidy) (hid : id < b.nextId)
    (hb : b.Visits id did h) : b'.Visits id did (h ++ [x]) := by
  obtain ⟨visits, last, hv, htask⟩ := hb
  cases hstep.fate htidy id with
  | other hx hsame =>
    obtain ⟨hopens, hcloses⟩ := Happening.opens_closes_of_other hx
    have hdeeds : Happening.deeds id [x] = [] := Happening.deeds_of_others (by simpa using hx)
    exact ⟨visits, last, hv.congr hdeeds hopens hcloses, fun t ht => htask t (hsame ▸ ht)⟩
  | mounted hnext => exact absurd hnext (Nat.ne_of_lt hid)
  | dropped hheld hcancel =>
    refine ⟨visits, last, hv.congr rfl rfl rfl, fun t' ht' => ?_⟩
    rw [hcancel] at ht'
    obtain ⟨t, ht, rfl⟩ := Option.map_eq_some_iff.mp ht'
    exact htask t ht
  | left ht hcancelled hnone =>
    refine ⟨visits, last, hv.congr rfl rfl rfl, fun t' ht' => ?_⟩
    rw [hnone] at ht'
    cases ht'
  | fell ht hcancelled hpart hnone =>
    refine ⟨visits, last, hv.congr rfl rfl rfl, fun t' ht' => ?_⟩
    rw [hnone] at ht'
    cases ht'
  | @moved t m ht hcancelled hallows hturn =>
    obtain ⟨hkind, htells⟩ := htask t ht
    obtain ⟨visits', last', hv', htells'⟩ := hv.move htells (b.turn_visits hkind htells hallows)
    refine ⟨visits', last', hv', fun t' ht' => ?_⟩
    rw [hturn] at ht'
    cases ht'
    exact ⟨(b.turn_kind t m).trans hkind, htells'⟩

namespace Run

variable {b b' : Board} {h h' : List Happening} {id : ViewId} {did : DeviceRef}

/-- A run goes on with the visits of a view. -/
theorem visits (hrun : Run b h' b') (htidy : b.Tidy) (hid : id < b.nextId)
    (hb : b.Visits id did h) : b'.Visits id did (h ++ h') := by
  induction hrun with
  | refl => rwa [List.append_nil]
  | step hrun₁ hstep ih =>
    rw [← List.append_assoc]
    exact hstep.visits (hrun₁.tidy htidy) (Nat.lt_of_lt_of_le hid hrun₁.nextId_le) ih

/-- A view of a device that was mounted in the course of a run makes visits. -/
theorem visits_of_mounted {n : Nat} (hrun : Run b h b') (hb : b.Tidy)
    (hmounted : .mounted id (.device did) n ∈ h) : b'.Visits id did h := by
  obtain ⟨h₁, h₂, b₂, rfl, hothers, hrun₁, hnew, hrun₂⟩ := hrun.exists_mounting hb hmounted
  obtain ⟨hopens, hcloses⟩ := Happening.opens_closes_of_others hothers
  have hbefore : Happening.Visited did id h₁ [] [] :=
    ⟨Happening.deeds_of_others hothers, nofun, .inl rfl, hopens, hcloses⟩
  have hfirst : b₂.Visits id did (h₁ ++ [.mounted id (.device did) n]) := by
    refine ⟨[], [], hbefore.congr rfl rfl rfl, fun t ht => ?_⟩
    obtain ⟨stamp, htask⟩ := hnew.task
    rw [htask] at ht
    cases ht
    exact ⟨rfl, rfl⟩
  have hvisits := hrun₂.visits (hrun₁.tidy hb) hnew.lt hfirst
  rwa [List.append_assoc, List.singleton_append] at hvisits

/-- A slot holds the state that its task kept last. -/
theorem snapshot_eq (hrun : Run b h b') (htidy : b.Tidy) (hsound : b.Sound)
    (hid : b.nextId ≤ id) {slot : Slot} (hslot : b'.store.get? id = some slot) :
    slot.snapshot = Deed.lastKept? (Happening.deeds id h) := by
  induction hrun generalizing slot with
  | refl =>
    rw [htidy.slots_lt id hid] at hslot
    cases hslot
  | @step b₁ b₂ h₁ x hrun₁ hstep ih =>
    have hkeep (hdeeds : Happening.deeds id [x] = [])
      (hsame : b₂.store.get? id = b₁.store.get? id) :
        slot.snapshot = Deed.lastKept? (Happening.deeds id (h₁ ++ [x])) := by
      rw [Happening.deeds_append, hdeeds, List.append_nil]
      exact ih (hsame ▸ hslot)
    have htidy₁ := hrun₁.tidy htidy
    cases hstep.fate htidy₁ id with
    | other hx htask hsame => exact hkeep (Happening.deeds_of_others (by simpa using hx)) hsame
    | mounted hnext htask hnew =>
      rw [hnew] at hslot
      cases hslot
      rw [Happening.deeds_append,
        Happening.deeds_of_others (hrun₁.isOf_eq_false htidy (Nat.le_of_eq hnext.symm))]
      rfl
    | dropped hheld htask hsame => exact hkeep rfl hsame
    | left ht hcancelled htask hgone =>
      rw [hgone] at hslot
      cases hslot
    | fell => exact hkeep rfl (hstep.slot_of_fell (hrun₁.sound htidy hsound))
    | moved ht hcancelled hallows htask htaken =>
      rw [htaken] at hslot
      obtain ⟨slot₁, hslot₁, rfl⟩ := Option.map_eq_some_iff.mp hslot
      rw [Slot.foldl_take_snapshot, ih hslot₁, Happening.deeds_append, Happening.deeds_moved,
        Deed.lastKept?, Deed.lastKept?, List.filterMap_append, List.getLast?_append,
        Moment.filterMap_kept?]

end Run

/-! ## Section 6 — the polls of a device -/

/-- The visits of a view, and the one that has not come to its end, tell how its task stops when
it cannot go on: at a failure, after which nothing is kept. -/
theorem Step.visit_of_fell {b b' : Board} {id : ViewId} {did : DeviceRef} {w : Moment}
    {last : List Deed} (h : Step b (.fell id w) b') (hsound : b.Sound)
    (htask : ∀ t, b.task? id = some t → t.kind = .device did ∧ t.Tells did last) :
    ∃ es rest, Visit did (last ++ w.deeds es ++ rest) ∧
      b'.books = es.foldl (Books.post w.wall) b.books ∧
      b'.store.get? id = b.store.get? id := by
  obtain ⟨rfl, t, m, ht, _, hallows, ⟨es, c, e, hreport⟩, _, hbooks⟩ := h.failure_of_fell
  obtain ⟨es', hes'⟩ := Effect.upToReport_prefix (b.turn t m).2.effects
  obtain ⟨hkind, htells⟩ := htask t ht
  have hmove := b.turn_visits hkind htells hallows
  rw [hreport] at hes' hbooks
  rw [← hes', Moment.deeds_append] at hmove
  have hne : b.moment.deeds (es ++ [.fail c e]) ≠ [] := by simp [Moment.deeds]
  have hrest : ∃ rest, Visit did (last ++ b.moment.deeds (es ++ [.fail c e]) ++ rest) := by
    cases hmove with
    | stayed hm hsame htells' =>
      rcases htells'.exists_rest with hnil | ⟨rest, _, hvisit⟩
      · simp [hne] at hnil
      · exact ⟨_, by simpa only [List.append_assoc] using hvisit⟩
    | opened hlast hfetch htells' =>
      subst hlast
      rcases htells'.exists_rest with hnil | ⟨rest, _, hvisit⟩
      · simp [hne] at hnil
      · exact ⟨_, by simpa only [List.nil_append, List.append_assoc] using hvisit⟩
    | closed hbefore hfetch hvisit => exact ⟨_, by simpa only [List.append_assoc] using hvisit⟩
  obtain ⟨rest, hvisit⟩ := hrest
  exact ⟨_, rest, hvisit, hbooks, h.slot_of_fell hsound⟩

/-- The polls of a device are visits, one after the other.  Each asks the device first, and
makes no other call before the device has answered with success; then it asks the controller
that this answer names, if it names one, and nobody else.  A visit keeps a state exactly if all
its calls have succeeded, and what it keeps is made of the answers to its own calls, as the
controller gave them at their moments; the slot of the view holds what was kept last.  A visit
that is on its way, was given up, or could not go on has done a part of this. -/
theorem Run.polls_are_visits {s : Settings} {intervals : Intervals} {wall : Int}
    {firstToast : Uuid} {h : List Happening} {b : Board} {id : ViewId}
    {did : DeviceRef} {n : Nat} (hrun : Run (Board.start s intervals wall firstToast) h b)
    (hmounted : .mounted id (.device did) n ∈ h) :
    ∃ visits last, Happening.Visited did id h visits last ∧
      (∀ v ∈ visits, (∃ w state, (w, .commit state) ∈ v) ↔
        ∀ w c, (w, .start c) ∈ v → ∃ w', (w', .succeed c) ∈ v) ∧
      (∀ slot, b.store.get? id = some slot → slot.snapshot = Deed.lastKept? visits.flatten) ∧
      (∀ w b', Step b (.fell id w) b' → ∃ es rest, Visit did (last ++ w.deeds es ++ rest) ∧
        b'.books = es.foldl (Books.post w.wall) b.books ∧
        b'.store.get? id = b.store.get? id) := by
  have htidy := Board.tidy_start s intervals wall firstToast
  have hsound := Board.sound_start s intervals wall firstToast
  obtain ⟨visits, last, hv, htask⟩ := hrun.visits_of_mounted htidy hmounted
  refine ⟨visits, last, hv, fun v hmem => (hv.visit v hmem).keeps_iff, ?_, ?_⟩
  · intro slot hslot
    obtain ⟨_, _, _, _, _, hrun₁, hstep, _⟩ := hrun.exists_step_of_mem hmounted
    have hid := Nat.le_trans hrun₁.nextId_le (Nat.le_of_eq hstep.of_mounted.1.symm)
    rw [hrun.snapshot_eq htidy hsound hid hslot, hv.lastKept?_eq]
  · intro w b' hfell
    exact hfell.visit_of_fell (hrun.sound htidy hsound) htask

/-- A device that changes hands while it is asked, and fails by the time its new owner answers:
the view keeps what both have answered to it. -/
theorem Run.polls_are_visits_renamed :
    ∃ (h : List Happening) (b : Board) (visits : List (List Deed)) (last : List Deed)
    (slot : Slot) (state : DeviceState) (warm : HeaterState),
    Run (Board.start {} ⟨200, 1000, by decide, by decide⟩ 0 ⟨0⟩) h b ∧
      .mounted 1 (.device ⟨7⟩) 0 ∈ h ∧
      Happening.Visited ⟨7⟩ 1 h visits last ∧ Happening.closes 1 h = [80] ∧
      b.store.get? 1 = some slot ∧
      slot.snapshot = some (.device ⟨state, some (.heaters warm)⟩) ∧
      slot.snapshot = Deed.lastKept? visits.flatten := by
  let door (owner : String) : DeviceState := { name := "door", uiViewName := some owner }
  let script : Script :=
    { devices := [(⟨7⟩, door "garage")], garage := some default, delays := [(.device, 30)] }
  let renamed : Script := { devices := [(⟨7⟩, door "heaters")], delays := [(.heaters, 50)] }
  let broken : Script :=
    { heaters := some default, failures := [(.device, ⟨.unavailable, "gone"⟩)] }
  let b₀ := Board.start {} ⟨200, 1000, by decide, by decide⟩ 0 ⟨0⟩
  let b₁ := ((b₀.attend (.script script)).hold (.device ⟨7⟩)).2
  let b₂ := { (b₁.move 1 .poll).attend (.script renamed) with now := 30 }
  let b₃ := { (b₂.move 1 .answers).attend (.script broken) with now := 80 }
  let h : List Happening := [.attended (.script script) 0, .mounted 1 (.device ⟨7⟩) 0,
    b₁.moving 1 .poll,
    .attended (.script renamed) 0, .passed 30, b₂.moving 1 .answers,
    .attended (.script broken) 0, .passed 80, b₃.moving 1 .answers]
  have hpoll : Step b₁ (b₁.moving 1 .poll) (b₁.move 1 .poll) := .of_canMove (by decide +kernel)
  have hdevice : Step b₂ (b₂.moving 1 .answers) (b₂.move 1 .answers) :=
    .of_canMove (by decide +kernel)
  have hheaters : Step b₃ (b₃.moving 1 .answers) (b₃.move 1 .answers) :=
    .of_canMove (by decide +kernel)
  have hsleeps₁ : ((b₁.move 1 .poll).attend (.script renamed)).SleepsUntil 30 := by
    decide +kernel
  have hsleeps₂ : ((b₂.move 1 .answers).attend (.script broken)).SleepsUntil 80 := by
    decide +kernel
  have hrun : Run b₀ h (b₃.move 1 .answers) :=
    .cons (.attend b₀ _) <| .cons (.hold _ (.device ⟨7⟩)) <| .cons hpoll <|
      .cons (.attend _ _) <|
      .cons (.pass (by decide +kernel) hsleeps₁) <| .cons hdevice <| .cons (.attend _ _) <|
        .cons (.pass (by decide +kernel) hsleeps₂) <| .single hheaters
  have hmounted : .mounted 1 (.device ⟨7⟩) 0 ∈ h := by simp [h]
  have hcloses : Happening.closes 1 h = [80] := by decide +kernel
  have hslot : (b₃.move 1 .answers).store.get? 1 = some
      { kind := .device ⟨7⟩
        snapshot := some (.device ⟨door "heaters", some (.heaters default)⟩)
        polledAt := some 0 } := by
    decide +kernel
  obtain ⟨visits, last, hvisited, _, hkept, _⟩ := Run.polls_are_visits hrun hmounted
  exact ⟨h, _, visits, last, _, _, _, hrun, hmounted, hvisited, hcloses, hslot, rfl,
    hkept _ hslot⟩

end HouseBoard
