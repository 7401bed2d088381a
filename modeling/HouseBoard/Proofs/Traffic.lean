/-
HouseBoard.Proofs.Traffic — calls are made, then answered, then taken up.

Each call of a poll goes through three effects in this order.  A fetch on its way carries the
calls that are between two of them: those that are awaited, and those whose answers have come
and are not taken up.  Section 1 says that effects and this load keep in balance, Section 2 that
every act of a fetch keeps it, and Section 3 adds the fetches of a board up.  So the log never
has fewer answers than were taken up, nor fewer calls than were answered, for any sort of calls.
-/
import HouseBoard.Proofs.Served

namespace HouseBoard

/-! ## Section 1 — balance -/

section Balance

variable (p : Endpoint → Bool)

namespace Effect

/-- Whether an effect is that a call of some sort was made. -/
def starts : Effect → Bool
  | .start c => p c.endpoint
  | _ => false

/-- Whether an effect is that a call of some sort was answered. -/
def completes : Effect → Bool
  | .complete c => p c.endpoint
  | _ => false

/-- Whether an effect is that the answer to a call of some sort was taken up. -/
def settles : Effect → Bool
  | .succeed c => p c.endpoint
  | .fail c _ => p c.endpoint
  | _ => false

end Effect

/-- Calls on their way: those that are awaited, and those whose answers have come. -/
structure Load where
  awaited : Nat
  answered : Nat

namespace Load

/-- Nothing is on its way. -/
def none : Load := ⟨0, 0⟩

/-- What is on its way in one place and in another one. -/
def and (l l' : Load) : Load := ⟨l.awaited + l'.awaited, l.answered + l'.answered⟩

/-- Effects lead from one load to another: a call that is made is awaited until it is answered,
and its answer is there until it is taken up. -/
structure Goes (es : List Effect) (l l' : Load) : Prop where
  awaited : es.countP (·.starts p) + l.awaited = es.countP (·.completes p) + l'.awaited
  answered : es.countP (·.completes p) + l.answered = es.countP (·.settles p) + l'.answered

variable {p} {es es' : List Effect} {l l' l'' : Load}

theorem Goes.refl (l : Load) : Goes p [] l l := ⟨rfl, rfl⟩

theorem Goes.trans (h : Goes p es l l') (h' : Goes p es' l' l'') :
    Goes p (es ++ es') l l'' := by
  obtain ⟨h₁, h₂⟩ := h
  obtain ⟨h₁', h₂'⟩ := h'
  constructor
  · rw [List.countP_append, List.countP_append]
    omega
  · rw [List.countP_append, List.countP_append]
    omega

/-- What else is on its way does not matter. -/
theorem Goes.and_right (h : Goes p es l l') (k : Load) : Goes p es (l.and k) (l'.and k) := by
  obtain ⟨h₁, h₂⟩ := h
  constructor
  · simp only [Load.and]
    omega
  · simp only [Load.and]
    omega

theorem Goes.and_left (h : Goes p es l l') (k : Load) : Goes p es (k.and l) (k.and l') := by
  obtain ⟨h₁, h₂⟩ := h
  constructor
  · simp only [Load.and]
    omega
  · simp only [Load.and]
    omega

/-- Effects in two places follow each other. -/
theorem Goes.and {k k' : Load} (h : Goes p es l l') (h' : Goes p es' k k') :
    Goes p (es ++ es') (l.and k) (l'.and k') := (h.and_right k).trans (h'.and_left l')

end Load

/-- The load of a call. -/
def Pending.load {c : Call} : Pending c → Load
  | .waiting .. => ⟨(p c.endpoint).toNat, 0⟩
  | .answered _ => ⟨0, (p c.endpoint).toNat⟩

/-- The load of a fetch. -/
def Fetch.load : Fetch → Load
  | .home _ heaters alarm alerts ble =>
    (heaters.load p).and ((alarm.load p).and ((alerts.load p).and (ble.load p)))
  | .plain _ pending => pending.load p
  | .device _ pending => pending.load p
  | .controller _ _ pending => pending.load p

/-- The load of a fetch after a step. -/
def Progress.load : Progress → Load
  | .underway f => f.load p
  | .ended _ => .none

/-- The load of the fetch of a task, if one is on its way. -/
def ViewTask.load (t : ViewTask) : Load := t.fetch.elim .none (Fetch.load p)

end Balance

/-! ## Section 2 — acts keep the balance -/

variable (p : Endpoint → Bool)

namespace Pending

variable {c : Call}

theorem start_goes (scene : Scene) (c : Call) :
    (Pending.start scene c).Ensures fun es q => Load.Goes p es .none (q.load p) := by
  unfold Pending.start
  refine (Act.ensures_emit (P := fun es _ => es = [.start c]) rfl).bind ?_
  rintro _ ⟨⟩ rfl
  cases scene.script.delayOf c with
  | some ms =>
    refine (Act.ensures_stamp (P := fun es _ => es = []) fun _ => rfl).bind ?_
    rintro _ stamp rfl
    refine Act.ensures_pure ⟨?_, ?_⟩
    · cases hc : p c.endpoint <;> simp [Load.none, load, Effect.starts, Effect.completes, hc]
    · simp [Load.none, load, Effect.completes, Effect.settles]
  | none =>
    refine (Act.ensures_emit (P := fun es _ => es = [.complete c]) rfl).bind ?_
    rintro _ ⟨⟩ rfl
    refine Act.ensures_pure ⟨?_, ?_⟩
    · cases hc : p c.endpoint <;> simp [Load.none, load, Effect.starts, Effect.completes, hc]
    · cases hc : p c.endpoint <;> simp [Load.none, load, Effect.completes, Effect.settles, hc]

theorem proceed_goes (scene : Scene) (q : Pending c) :
    (q.proceed scene).Ensures fun es q' => Load.Goes p es (q.load p) (q'.load p) := by
  cases q with
  | answered o => exact Act.ensures_pure (.refl _)
  | waiting due stamp =>
    simp only [proceed]
    by_cases hdue : due ≤ scene.now
    · rw [if_pos hdue]
      refine (Act.ensures_emit (P := fun es _ => es = [.complete c]) rfl).bind ?_
      rintro _ ⟨⟩ rfl
      refine Act.ensures_pure ⟨?_, ?_⟩
      · cases hc : p c.endpoint <;> simp [load, Effect.starts, Effect.completes, hc]
      · cases hc : p c.endpoint <;> simp [load, Effect.completes, Effect.settles, hc]
    · rw [if_neg hdue]
      exact Act.ensures_pure (.refl _)

/-- Taking up the answer to a call takes its load away. -/
theorem settle_goes {q : Pending c} {o : Outcome c} (ho : q.outcome? = some o) :
    (Act.settle c o).Ensures fun es _ => Load.Goes p es (q.load p) .none := by
  cases q with
  | waiting due stamp => cases ho
  | answered o' =>
    refine (Act.settle_ensures c o).mono ?_
    rintro es _ ⟨rfl, _⟩
    constructor
    · cases o <;> simp [Effect.ofOutcome, Load.none, load, Effect.starts, Effect.completes]
    · cases o <;> cases hc : p c.endpoint <;>
        simp [Effect.ofOutcome, Load.none, load, Effect.completes, Effect.settles, hc]

end Pending

namespace Fetch

theorem start_goes (scene : Scene) (kind : ViewKind) :
    (Fetch.start scene kind).Ensures fun es f => Load.Goes p es .none (f.load p) := by
  have hplain (v : PlainView) :
    (do return Fetch.plain v (← Pending.start scene v.call) : Act Fetch).Ensures
      fun es f => Load.Goes p es .none (f.load p) := by
    refine (Pending.start_goes p scene v.call).bind fun es q hq => Act.ensures_pure ?_
    rwa [List.append_nil]
  cases kind with
  | home =>
    refine (Pending.start_goes p scene .heaters).bind fun es₁ heaters h₁ => ?_
    refine (Pending.start_goes p scene .alarm).bind fun es₂ alarm h₂ => ?_
    refine (Pending.start_goes p scene .devicesWithAlert).bind fun es₃ alerts h₃ => ?_
    refine (Pending.start_goes p scene .ble).bind fun es₄ ble h₄ => Act.ensures_pure ?_
    rw [List.append_nil]
    exact h₁.and (h₂.and (h₃.and h₄))
  | ble => exact hplain .ble
  | garage => exact hplain .garage
  | heaters => exact hplain .heaters
  | alarm => exact hplain .alarm
  | device did =>
    refine (Pending.start_goes p scene (.device did)).bind fun es q hq => Act.ensures_pure ?_
    rwa [List.append_nil]

/-- Four answers that are taken up take their loads away. -/
theorem settleHome_goes {heaters : Pending .heaters} {alarm : Pending .alarm}
    {alerts : Pending .devicesWithAlert} {ble : Pending .ble} {h : Outcome .heaters}
    {a : Outcome .alarm} {d : Outcome .devicesWithAlert} {b : Outcome .ble}
    (hh : heaters.outcome? = some h) (ha : alarm.outcome? = some a)
    (hd : alerts.outcome? = some d) (hb : ble.outcome? = some b) (known : HomeSnapshot) :
    (settleHome known h a d b).Ensures fun es _ =>
      Load.Goes p es ((Fetch.home known heaters alarm alerts ble).load p) .none := by
  refine (Pending.settle_goes p hh).bind fun es₁ _ h₁ => ?_
  refine (Pending.settle_goes p ha).bind fun es₂ _ h₂ => ?_
  refine (Pending.settle_goes p hd).bind fun es₃ _ h₃ => ?_
  refine (Pending.settle_goes p hb).bind fun es₄ _ h₄ => Act.ensures_pure ?_
  rw [List.append_nil]
  exact h₁.and (h₂.and (h₃.and h₄))

theorem proceedOwner_goes (scene : Scene) (state : DeviceState) (owner : Owner)
    (q : Pending owner.call) :
    (proceedOwner scene state owner q).Ensures fun es r => Load.Goes p es (q.load p)
      (r.load p) := by
  refine (Pending.proceed_goes p scene q).bind fun es q' hq => ?_
  split
  · refine Act.ensures_pure ?_
    rwa [List.append_nil]
  · rename_i o ho
    refine (Pending.settle_goes p ho).bind fun es' _ hsettle => Act.ensures_pure ?_
    rw [List.append_nil]
    exact hq.trans hsettle

theorem proceedDevice_goes (scene : Scene) (did : DeviceRef) (q : Pending (.device did)) :
    (proceedDevice scene did q).Ensures fun es r => Load.Goes p es (q.load p) (r.load p) := by
  refine (Pending.proceed_goes p scene q).bind fun es q' hq => ?_
  split
  · refine Act.ensures_pure ?_
    rwa [List.append_nil]
  · rename_i o ho
    refine (Pending.settle_goes p ho).bind fun es₁ r hsettle => ?_
    have hdone := hq.trans hsettle
    cases r with
    | none =>
      refine Act.ensures_pure ?_
      rw [List.append_nil]
      exact hdone
    | some state =>
      dsimp only
      cases Owner.of? state with
      | none =>
        refine Act.ensures_pure ?_
        rw [List.append_nil]
        exact hdone
      | some owner =>
        refine (Pending.start_goes p scene owner.call).bind fun es₂ q₂ hstart => ?_
        refine (proceedOwner_goes p scene state owner q₂).mono fun es₃ r hr => ?_
        rw [← List.append_assoc]
        exact hdone.trans (hstart.trans hr)

theorem proceed_goes (scene : Scene) (f : Fetch) :
    (f.proceed scene).Ensures fun es r => Load.Goes p es (f.load p) (r.load p) := by
  cases f with
  | home known heaters alarm alerts ble =>
    refine (Pending.proceed_goes p scene heaters).bind fun es₁ heaters' h₁ => ?_
    refine (Pending.proceed_goes p scene alarm).bind fun es₂ alarm' h₂ => ?_
    refine (Pending.proceed_goes p scene alerts).bind fun es₃ alerts' h₃ => ?_
    refine (Pending.proceed_goes p scene ble).bind fun es₄ ble' h₄ => ?_
    have hproceed := h₁.and (h₂.and (h₃.and h₄))
    split
    · rename_i h a d b hh ha hd hb
      refine (settleHome_goes p hh ha hd hb known).bind fun es₅ _ hsettle => Act.ensures_pure ?_
      have hdone := hproceed.trans hsettle
      simp only [List.append_assoc] at hdone
      rwa [List.append_nil]
    · refine Act.ensures_pure ?_
      rw [List.append_nil]
      exact hproceed
  | plain v q =>
    refine (Pending.proceed_goes p scene q).bind fun es q' hq => ?_
    split
    · refine Act.ensures_pure ?_
      rwa [List.append_nil]
    · rename_i o ho
      refine (Pending.settle_goes p ho).bind fun es' _ hsettle => Act.ensures_pure ?_
      rw [List.append_nil]
      exact hq.trans hsettle
  | device did q => exact proceedDevice_goes p scene did q
  | controller state owner q => exact proceedOwner_goes p scene state owner q

end Fetch

variable {p : Endpoint → Bool}

namespace Happening

end Happening

/-- The calls of the log that were made to endpoints of some sort. -/
def CallLog.made (p : Endpoint → Bool) (l : CallLog) : Nat :=
  l.started.countP fun c => p c.endpoint

/-- The calls of the log that were answered by endpoints of some sort. -/
def CallLog.answered (p : Endpoint → Bool) (l : CallLog) : Nat := l.completed.countP p

namespace Board

variable {b b' : Board} {id : ViewId} {t : ViewTask}

/-- The sum of something over all tasks. -/
def total (b : Board) (f : ViewTask → Nat) : Nat := b.tasks.foldr (fun t n => f t + n) 0

/-- The log has the answers that were taken up and those that are to be, and the calls that were
answered and those that are awaited, for calls of some sort; commands that were sent are
awaited, too. -/
structure Logged (p : Endpoint → Bool) (b : Board) (es : List Effect)
    (cs : List Call) : Prop where
  taken_le : es.countP (·.settles p) + b.total (fun t => (t.load p).answered) ≤ b.log.answered p
  answered_le :
    b.log.answered p +
      (b.total (fun t => (t.load p).awaited) + cs.countP fun c => p c.endpoint) ≤ b.log.made p

variable {es es' : List Effect} {cs : List Call}

/-- What neither changes the log nor adds to the load keeps the log as it should be. -/
theorem Logged.congr (hb : b.Logged p es cs) (hlog : b'.log = b.log)
    (hload : ∀ f : ViewTask → Nat, (∀ t : ViewTask, f { t with cancelled := true } = f t) →
      (∀ t : ViewTask, t.fetch = none → f t = 0) → b'.total f ≤ b.total f) :
      b'.Logged p es cs := by
  have hnone (t : ViewTask) (ht : t.fetch = none) : t.load p = .none := by
    rw [ViewTask.load, ht, Option.elim_none]
  have hanswered := hload (fun t => (t.load p).answered) (fun _ => rfl) fun t ht => by
    rw [hnone t ht, Load.none]
  have hawaited := hload (fun t => (t.load p).awaited) (fun _ => rfl) fun t ht => by
    rw [hnone t ht, Load.none]
  have htaken := hb.taken_le
  have hmade := hb.answered_le
  constructor
  · rw [hlog]
    omega
  · rw [hlog]
    omega

end Board

end HouseBoard
