/-
HouseBoard.Proofs.Fetch — what a fetch does, told by the answers to its calls.

A fetch goes on in pieces, one for each instant at which an answer arrives.  `Poll` is the same
poll as it looks from outside: the sections that were known when it started, the answers that
have come, and the settlements.  `Poll.learned?` says, without calls on their way, what a view
learns from a set of answers, and `Poll.settled` how those answers are taken up.  The main
statements are `Fetch.start_ensures` and `Fetch.proceed_ensures`: a fetch agrees with its poll
for as long as it is on its way, and when it ends it has learned what the poll says.
-/
import HouseBoard.Proofs.Act

namespace HouseBoard

/-! ## Section 1 — polls seen from outside -/

/-- The view of one call as a view of the dashboard. -/
def PlainView.kind : PlainView → ViewKind
  | .ble => .ble
  | .garage => .garage
  | .heaters => .heaters
  | .alarm => .alarm

/-- The answers that have come to calls. -/
abbrev Answers := (c : Call) → Option (Outcome c)

/-- How the answer to a call is taken up, once it is there. -/
def Answers.settlement (answers : Answers) (c : Call) : List Effect :=
  ((answers c).map (Effect.ofOutcome c)).toList

/-- A poll as it is seen from outside. -/
structure Poll where
  /-- The sections of the home view that were known when the poll started. -/
  known : HomeSnapshot
  answers : Answers
  /-- The settlements of the answers that were taken up. -/
  taken : List Effect

namespace Poll

/-- A poll of which nothing was seen yet. -/
def unseen (known : HomeSnapshot) : Poll := ⟨known, fun _ => none, []⟩

/-- A poll after some more effects were seen. -/
def see (p : Poll) (s : Script) (es : List Effect) : Poll where
  known := p.known
  answers := fun c => (p.answers c).or (s.answer? es c)
  taken := p.taken ++ settlements es

@[simp] theorem see_known (p : Poll) (s : Script) (es : List Effect) :
    (p.see s es).known = p.known := rfl

@[simp] theorem see_answers (p : Poll) (s : Script) (es : List Effect) (c : Call) :
    (p.see s es).answers c = (p.answers c).or (s.answer? es c) := rfl

@[simp] theorem see_taken (p : Poll) (s : Script) (es : List Effect) :
    (p.see s es).taken = p.taken ++ settlements es := rfl

/-- What is seen in two pieces at one instant can be seen in one. -/
theorem see_see (p : Poll) (s : Script) (es es' : List Effect) :
    (p.see s es).see s es' = p.see s (es ++ es') := by
  simp [see, Script.answer?_append, Option.or_assoc]

/-- An answer that has come is not replaced. -/
theorem see_answers_of_some {p : Poll} {c : Call} {o : Outcome c}
    (h : p.answers c = some o) (s : Script) (es : List Effect) :
    (p.see s es).answers c = some o := by
  rw [see_answers, h, Option.some_or]

/-- Calls and their answers settle nothing. -/
theorem see_taken_of_isCall (p : Poll) (s : Script) {es : List Effect}
    (h : ∀ e ∈ es, e.isCall = true) : (p.see s es).taken = p.taken := by
  rw [see_taken, settlements_eq_nil_of_isCall h, List.append_nil]

/-- Settlements bring no answers. -/
theorem see_of_isSettlement (p : Poll) (s : Script) {es : List Effect}
    (h : ∀ e ∈ es, e.isSettlement = true) : p.see s es = { p with taken := p.taken ++ es } := by
  have hnone (c : Call) : s.answer? es c = none := Script.answer?_eq_none_of_settlement h c
  have hall : settlements es = es := List.filter_eq_self.mpr h
  simp only [see, hnone, Option.or_none, hall]

/-- The sections that four answers bring. -/
def freshHome (heaters : Outcome .heaters) (alarm : Outcome .alarm)
    (alerts : Outcome .devicesWithAlert) (ble : Outcome .ble) : HomeSnapshot :=
  ⟨heaters.toOption, alarm.toOption, alerts.toOption, ble.toOption⟩

/-- What the home view learns from four answers: nothing if all of them are failures, else the
fresh sections in the place of the known ones. -/
def learnedHome (known : HomeSnapshot) (heaters : Outcome .heaters) (alarm : Outcome .alarm)
    (alerts : Outcome .devicesWithAlert) (ble : Outcome .ble) : Option Snapshot :=
  if freshHome heaters alarm alerts ble = {} then none
  else some (.home (known.updated (freshHome heaters alarm alerts ble)))

/-- What a view learns from the answers to its calls; none while one of them has not come. -/
def learned? (p : Poll) : ViewKind → Option (Option Snapshot)
  | .home => do
    let heaters ← p.answers .heaters
    let alarm ← p.answers .alarm
    let alerts ← p.answers .devicesWithAlert
    let ble ← p.answers .ble
    return learnedHome p.known heaters alarm alerts ble
  | .ble => (p.answers .ble).map fun o => o.toOption.map .ble
  | .garage => (p.answers .garage).map fun o => o.toOption.map .garage
  | .heaters => (p.answers .heaters).map fun o => o.toOption.map .heaters
  | .alarm => (p.answers .alarm).map fun o => o.toOption.map .alarm
  | .device did =>
    match p.answers (.device did) with
    | none => none
    | some (.error _) => some none
    | some (.ok state) =>
      match Owner.of? state with
      | none => some (some (.device ⟨state, none⟩))
      | some owner =>
        (p.answers owner.call).map fun o => o.toOption.map fun l =>
          .device ⟨state, some (owner.live l)⟩

/-- The settlements of a poll whose answers have all come, in the order in which
they are made. -/
def settled (p : Poll) : ViewKind → List Effect
  | .home =>
    p.answers.settlement .heaters ++ (p.answers.settlement .alarm ++
      (p.answers.settlement .devicesWithAlert ++ p.answers.settlement .ble))
  | .ble => p.answers.settlement .ble
  | .garage => p.answers.settlement .garage
  | .heaters => p.answers.settlement .heaters
  | .alarm => p.answers.settlement .alarm
  | .device did =>
    p.answers.settlement (.device did) ++
      match p.answers (.device did) with
      | some (.ok state) =>
        match Owner.of? state with
        | some owner => p.answers.settlement owner.call
        | none => []
      | _ => []

/-- Four answers say what the home view learns, and how they are taken up. -/
theorem learned?_home {p : Poll} {h : Outcome .heaters} {a : Outcome .alarm}
    {d : Outcome .devicesWithAlert} {b : Outcome .ble} (hh : p.answers .heaters = some h)
    (ha : p.answers .alarm = some a) (hd : p.answers .devicesWithAlert = some d)
    (hb : p.answers .ble = some b) :
    p.learned? .home = some (learnedHome p.known h a d b) ∧
      p.settled .home =
        [.ofOutcome .heaters h, .ofOutcome .alarm a, .ofOutcome .devicesWithAlert d,
          .ofOutcome .ble b] := by
  simp [learned?, settled, Answers.settlement, hh, ha, hd, hb]

/-- The home view learns from four answers. -/
theorem exists_of_learned?_home {p : Poll} {learned : Option Snapshot}
    (h : p.learned? .home = some learned) :
    ∃ o₁ o₂ o₃ o₄, p.answers .heaters = some o₁ ∧ p.answers .alarm = some o₂ ∧
      p.answers .devicesWithAlert = some o₃ ∧ p.answers .ble = some o₄ ∧
      learnedHome p.known o₁ o₂ o₃ o₄ = learned := by
  simp only [learned?, Option.bind_eq_bind, Option.bind_eq_some_iff, Option.pure_def,
    Option.some.injEq] at h
  obtain ⟨o₁, h₁, o₂, h₂, o₃, h₃, o₄, h₄, hlearned⟩ := h
  exact ⟨o₁, o₂, o₃, o₄, h₁, h₂, h₃, h₄, hlearned⟩

/-- The view of a device learns what the device answers, alone if nothing owns it, or else
beside what its controller answers. -/
theorem exists_of_learned?_device {p : Poll} {did : DeviceRef} {s : Snapshot}
    (h : p.learned? (.device did) = some (some s)) :
    ∃ state, p.answers (.device did) = some (.ok state) ∧
      ((Owner.of? state = none ∧ s = .device ⟨state, none⟩) ∨ ∃ owner reply,
        Owner.of? state = some owner ∧
        p.answers owner.call = some (.ok reply) ∧
        s = .device ⟨state, some (owner.live reply)⟩) := by
  simp only [learned?] at h
  split at h
  · cases h
  · cases h
  · rename_i state hstate
    split at h
    · rename_i hnone
      cases h
      exact ⟨state, hstate, .inl ⟨hnone, rfl⟩⟩
    · rename_i owner howner
      obtain ⟨o, ho, hlearned⟩ := Option.map_eq_some_iff.mp h
      cases o with
      | error e => cases hlearned
      | ok reply =>
        cases hlearned
        exact ⟨state, hstate, .inr ⟨owner, reply, howner, ho, rfl⟩⟩

/-- What a view learns depends on the answers, and not on those that were taken up. -/
theorem learned?_taken (p : Poll) (taken : List Effect) (kind : ViewKind) :
    ({ p with taken } : Poll).learned? kind = p.learned? kind ∧
      ({ p with taken } : Poll).settled kind = p.settled kind := by
  cases kind <;> exact ⟨rfl, rfl⟩

theorem learned?_plain (p : Poll) (v : PlainView) :
    p.learned? v.kind = (p.answers v.call).map fun o => o.toOption.map v.snapshot := by
  cases v <;> rfl

theorem settled_plain (p : Poll) (v : PlainView) :
    p.settled v.kind = p.answers.settlement v.call := by
  cases v <;> rfl

end Poll

namespace Fetch

/-- A fetch is that of a kind of view, and has the answers that its poll was seen to have. -/
inductive Agrees (p : Poll) : ViewKind → Fetch → Prop where
  | home {heaters : Pending .heaters} {alarm : Pending .alarm}
      {alerts : Pending .devicesWithAlert} {ble : Pending .ble}
      (hheaters : heaters.outcome? = p.answers .heaters)
      (halarm : alarm.outcome? = p.answers .alarm)
      (halerts : alerts.outcome? = p.answers .devicesWithAlert)
      (hble : ble.outcome? = p.answers .ble) (htaken : p.taken = []) :
      Agrees p .home (.home p.known heaters alarm alerts ble)
  | plain {v : PlainView} {pending : Pending v.call}
      (hpending : pending.outcome? = p.answers v.call) (htaken : p.taken = []) :
      Agrees p v.kind (.plain v pending)
  | device {did : DeviceRef} {pending : Pending (.device did)}
      (hpending : pending.outcome? = p.answers (.device did))
      (howners : ∀ o : Owner, p.answers o.call = none) (htaken : p.taken = []) :
      Agrees p (.device did) (.device did pending)
  | controller {did : DeviceRef} {state : DeviceState} {owner : Owner}
      {pending : Pending owner.call} (hstate : p.answers (.device did) = some (.ok state))
      (howner : Owner.of? state = some owner)
      (hpending : pending.outcome? = p.answers owner.call)
      (htaken : p.taken = [.succeed (.device did)]) :
      Agrees p (.device did) (.controller state owner pending)

/-- An answer is awaited, and none comes before an instant. -/
def SleepsUntil (f : Fetch) (n : Nat) : Prop := f.timers ≠ [] ∧ ∀ e ∈ f.timers, n ≤ e.1

instance (f : Fetch) (n : Nat) : Decidable (f.SleepsUntil n) :=
  inferInstanceAs (Decidable (_ ∧ _))

end Fetch

/-! ## Section 2 — a fetch starts -/

/-- Among the effects of the four calls of the home view, each call is answered by its own. -/
theorem Script.answer?_home (s : Script) {es₁ es₂ es₃ es₄ : List Effect}
    (h₁ : ∀ e ∈ es₁, e.IsAbout .heaters) (h₂ : ∀ e ∈ es₂, e.IsAbout .alarm)
    (h₃ : ∀ e ∈ es₃, e.IsAbout .devicesWithAlert) (h₄ : ∀ e ∈ es₄, e.IsAbout .ble) :
    s.answer? (es₁ ++ (es₂ ++ (es₃ ++ es₄))) .heaters = s.answer? es₁ .heaters ∧
      s.answer? (es₁ ++ (es₂ ++ (es₃ ++ es₄))) .alarm = s.answer? es₂ .alarm ∧
      s.answer? (es₁ ++ (es₂ ++ (es₃ ++ es₄))) .devicesWithAlert =
        s.answer? es₃ .devicesWithAlert ∧
      s.answer? (es₁ ++ (es₂ ++ (es₃ ++ es₄))) .ble = s.answer? es₄ .ble := by
  simp only [Script.answer?_append]
  refine ⟨?_, ?_, ?_, ?_⟩
  · simp [Script.answer?_eq_none_of_about h₂, Script.answer?_eq_none_of_about h₃,
      Script.answer?_eq_none_of_about h₄]
  · simp [Script.answer?_eq_none_of_about h₁, Script.answer?_eq_none_of_about h₃,
      Script.answer?_eq_none_of_about h₄]
  · simp [Script.answer?_eq_none_of_about h₁, Script.answer?_eq_none_of_about h₂,
      Script.answer?_eq_none_of_about h₄]
  · simp [Script.answer?_eq_none_of_about h₁, Script.answer?_eq_none_of_about h₂,
      Script.answer?_eq_none_of_about h₃]

/-- What belongs to the four calls of the home view is calls. -/
theorem isCall_home {es₁ es₂ es₃ es₄ : List Effect} (h₁ : ∀ e ∈ es₁, e.IsAbout .heaters)
    (h₂ : ∀ e ∈ es₂, e.IsAbout .alarm) (h₃ : ∀ e ∈ es₃, e.IsAbout .devicesWithAlert)
    (h₄ : ∀ e ∈ es₄, e.IsAbout .ble) : ∀ e ∈ es₁ ++ (es₂ ++ (es₃ ++ es₄)), e.isCall = true := by
  intro e he
  simp only [List.mem_append] at he
  rcases he with he | he | he | he
  · exact (h₁ e he).isCall
  · exact (h₂ e he).isCall
  · exact (h₃ e he).isCall
  · exact (h₄ e he).isCall

theorem PlainView.start_ensures (scene : Scene) (known : HomeSnapshot) (v : PlainView) :
    (do return Fetch.plain v (← Pending.start scene v.call) : Act Fetch).Ensures fun es f =>
      (∀ e ∈ es, e.isCall = true) ∧ f.Agrees
        ((Poll.unseen known).see scene.script es) v.kind := by
  refine (Pending.start_ensures scene v.call).bind ?_
  rintro es p ⟨habout, hout⟩
  have hcall : ∀ e ∈ es, e.isCall = true := fun e he => (habout e he).isCall
  refine Act.ensures_pure ?_
  rw [List.append_nil]
  exact ⟨hcall, .plain hout (settlements_eq_nil_of_isCall hcall)⟩

/-- A fetch that starts agrees with a poll that starts, with what is known of the view. -/
theorem Fetch.start_ensures (scene : Scene) (kind : ViewKind) :
    (Fetch.start scene kind).Ensures fun es f =>
      (∀ e ∈ es, e.isCall = true) ∧
        f.Agrees ((Poll.unseen (Snapshot.sections scene.known)).see scene.script es) kind := by
  cases kind with
  | home =>
    refine (Pending.start_ensures scene .heaters).bind ?_
    rintro es₁ heaters ⟨h₁, hheaters⟩
    refine (Pending.start_ensures scene .alarm).bind ?_
    rintro es₂ alarm ⟨h₂, halarm⟩
    refine (Pending.start_ensures scene .devicesWithAlert).bind ?_
    rintro es₃ alerts ⟨h₃, halerts⟩
    refine (Pending.start_ensures scene .ble).bind ?_
    rintro es₄ ble ⟨h₄, hble⟩
    refine Act.ensures_pure ?_
    have hcall := isCall_home h₁ h₂ h₃ h₄
    obtain ⟨a₁, a₂, a₃, a₄⟩ := Script.answer?_home scene.script h₁ h₂ h₃ h₄
    rw [List.append_nil]
    refine ⟨hcall, .home ?_ ?_ ?_ ?_ (settlements_eq_nil_of_isCall hcall)⟩
    · simpa [Poll.unseen, a₁] using hheaters
    · simpa [Poll.unseen, a₂] using halarm
    · simpa [Poll.unseen, a₃] using halerts
    · simpa [Poll.unseen, a₄] using hble
  | ble => exact PlainView.start_ensures scene _ .ble
  | garage => exact PlainView.start_ensures scene _ .garage
  | heaters => exact PlainView.start_ensures scene _ .heaters
  | alarm => exact PlainView.start_ensures scene _ .alarm
  | device did =>
    refine (Pending.start_ensures scene (.device did)).bind ?_
    rintro es p ⟨habout, hout⟩
    have hcall : ∀ e ∈ es, e.isCall = true := fun e he => (habout e he).isCall
    refine Act.ensures_pure ?_
    rw [List.append_nil]
    refine ⟨hcall, .device hout ?_ (settlements_eq_nil_of_isCall hcall)⟩
    intro o
    rw [Poll.see_answers, Script.answer?_eq_none_of_about habout
      (by cases o <;> simp [Owner.call])]
    rfl

/-! ## Section 3 — a fetch goes on -/

/-- The answers of the home view are taken up in order, and what is learned from
them is kept. -/
theorem Fetch.settleHome_ensures (known : HomeSnapshot) (heaters : Outcome .heaters)
    (alarm : Outcome .alarm) (alerts : Outcome .devicesWithAlert) (ble : Outcome .ble) :
    (Fetch.settleHome known heaters alarm alerts ble).Ensures fun es r =>
      es = [.ofOutcome .heaters heaters, .ofOutcome .alarm alarm,
        .ofOutcome .devicesWithAlert alerts,
        .ofOutcome .ble ble] ∧ r = Poll.learnedHome known heaters alarm alerts ble := by
  refine (Act.settle_ensures .heaters heaters).bind ?_
  rintro _ _ ⟨rfl, rfl⟩
  refine (Act.settle_ensures .alarm alarm).bind ?_
  rintro _ _ ⟨rfl, rfl⟩
  refine (Act.settle_ensures .devicesWithAlert alerts).bind ?_
  rintro _ _ ⟨rfl, rfl⟩
  refine (Act.settle_ensures .ble ble).bind ?_
  rintro _ _ ⟨rfl, rfl⟩
  exact Act.ensures_pure ⟨rfl, rfl⟩

/-- What a piece of a fetch of a kind of view has to meet: it calls and settles, and then it
either agrees with its poll and waits for an answer to come, or has learned what the poll
says. -/
def Progress.Follows (p : Poll) (kind : ViewKind) (scene : Scene) (es : List Effect)
    (r : Progress) : Prop :=
  (∀ e ∈ es, e.isCall = true ∨ e.isSettlement = true) ∧
    match r with
    | .underway f => f.Agrees (p.see scene.script es) kind ∧ f.SleepsUntil (scene.now + 1)
    | .ended s => (p.see scene.script es).learned? kind = some s ∧
        (p.see scene.script es).taken = (p.see scene.script es).settled kind

namespace Progress.Follows

variable {p : Poll} {kind : ViewKind} {scene : Scene} {es es' : List Effect}

/-- A fetch goes on after its calls and answers if it agrees with its poll. -/
theorem of_calls {f : Fetch} (hes : ∀ e ∈ es, e.isCall = true)
    (hagrees : f.Agrees (p.see scene.script es) kind)
    (hsleeps : f.SleepsUntil (scene.now + 1)) : Follows p kind scene es (.underway f) :=
  ⟨fun e he => .inl (hes e he), hagrees, hsleeps⟩

/-- A fetch ends with the last settlements, and with what its poll has learned. -/
theorem of_settlements {learned : Option Snapshot} (hes : ∀ e ∈ es, e.isSettlement = true)
    (hlearned : p.learned? kind = some learned) (htaken : p.taken ++ es = p.settled kind) :
    Follows p kind scene es (.ended learned) := by
  obtain ⟨hlearned', hsettled'⟩ := p.learned?_taken (p.taken ++ es) kind
  refine ⟨fun e he => .inr (hes e he), ?_⟩
  rw [p.see_of_isSettlement scene.script hes, hlearned', hsettled']
  exact ⟨hlearned, htaken⟩

/-- A piece of a fetch that follows on another one. -/
theorem after {r : Progress} (hes : ∀ e ∈ es, e.isCall = true ∨ e.isSettlement = true)
    (h : Follows (p.see scene.script es) kind scene es' r) :
    Follows p kind scene (es ++ es') r := by
  obtain ⟨hcalls, hr⟩ := h
  rw [Poll.see_see] at hr
  refine ⟨fun e he => ?_, hr⟩
  rcases List.mem_append.mp he with he | he
  · exact hes e he
  · exact hcalls e he

end Progress.Follows

/-- One call that is still awaited lets a fetch sleep. -/
theorem Fetch.sleepsUntil_single {c : Call} {pending : Pending c} {now : Nat} {f : Fetch}
    (hf : f.timers = pending.timer?.toList) (hout : pending.outcome? = none)
    (hlate : ∀ e ∈ pending.timer?, now < e.1) : f.SleepsUntil (now + 1) := by
  have hsome := Pending.timer?_isSome_of_outcome? hout
  obtain ⟨e, he⟩ := Option.isSome_iff_exists.mp hsome
  simp only [SleepsUntil, hf, he, Option.toList_some]
  refine ⟨by simp, ?_⟩
  intro e' he'
  rw [List.mem_singleton.mp he']
  exact hlate e he

/-- The timers of the home view are those of the calls that are still awaited. -/
theorem Fetch.mem_timers_home {known : HomeSnapshot} {heaters : Pending .heaters}
    {alarm : Pending .alarm} {alerts : Pending .devicesWithAlert} {ble : Pending .ble}
    {e : Nat × Nat} :
    e ∈ (Fetch.home known heaters alarm alerts ble).timers ↔
      e ∈ heaters.timer? ∨ e ∈ alarm.timer? ∨ e ∈ alerts.timer? ∨ e ∈ ble.timer? := by
  simp only [timers, List.mem_filterMap, List.mem_cons, List.not_mem_nil, or_false, id_eq,
    Option.mem_def]
  constructor
  · rintro ⟨o, rfl | rfl | rfl | rfl, ho⟩
    · exact .inl ho
    · exact .inr (.inl ho)
    · exact .inr (.inr (.inl ho))
    · exact .inr (.inr (.inr ho))
  · rintro (h | h | h | h)
    · exact ⟨_, .inl rfl, h⟩
    · exact ⟨_, .inr (.inl rfl), h⟩
    · exact ⟨_, .inr (.inr (.inl rfl)), h⟩
    · exact ⟨_, .inr (.inr (.inr rfl)), h⟩

/-- The home view sleeps while one of its calls is still awaited. -/
theorem Fetch.sleepsUntil_home {known : HomeSnapshot} {heaters : Pending .heaters}
    {alarm : Pending .alarm} {alerts : Pending .devicesWithAlert}
    {ble : Pending .ble} {now : Nat}
    (hmissing : ∀ h a d b, heaters.outcome? = some h → alarm.outcome? = some a →
      alerts.outcome? = some d →
      ble.outcome? = some b → False)
    (hheaters : ∀ e ∈ heaters.timer?, now < e.1) (halarm : ∀ e ∈ alarm.timer?, now < e.1)
    (halerts : ∀ e ∈ alerts.timer?, now < e.1) (hble : ∀ e ∈ ble.timer?, now < e.1) :
    (Fetch.home known heaters alarm alerts ble).SleepsUntil (now + 1) := by
  constructor
  · -- an outcome is missing, and its call has a timer
    intro hnil
    have hno (e : Nat × Nat) := List.eq_nil_iff_forall_not_mem.mp hnil e
    simp only [mem_timers_home, not_or] at hno
    have houtcome {c : Call} {q : Pending c} (hq : ∀ e, e ∉ q.timer?) :
        ∃ o, q.outcome? = some o := by
      cases hout : q.outcome? with
      | some o => exact ⟨o, rfl⟩
      | none =>
        obtain ⟨e, he⟩ := Option.isSome_iff_exists.mp (Pending.timer?_isSome_of_outcome? hout)
        exact absurd he (hq e)
    obtain ⟨h, hh⟩ := houtcome fun e => (hno e).1
    obtain ⟨a, ha⟩ := houtcome fun e => (hno e).2.1
    obtain ⟨d, hd⟩ := houtcome fun e => (hno e).2.2.1
    obtain ⟨b, hb⟩ := houtcome fun e => (hno e).2.2.2
    exact hmissing h a d b hh ha hd hb
  · intro e he
    rcases mem_timers_home.mp he with he | he | he | he
    · exact hheaters e he
    · exact halarm e he
    · exact halerts e he
    · exact hble e he

/-- The home view ends with what its four answers say. -/
theorem Fetch.settleHome_follows {p : Poll} {h : Outcome .heaters} {a : Outcome .alarm}
    {d : Outcome .devicesWithAlert} {b : Outcome .ble} (hh : p.answers .heaters = some h)
    (ha : p.answers .alarm = some a) (hd : p.answers .devicesWithAlert = some d)
    (hb : p.answers .ble = some b) (htaken : p.taken = []) (scene : Scene) :
    (do return Progress.ended (← Fetch.settleHome p.known h a d b) : Act Progress).Ensures
      (Progress.Follows p .home scene) := by
  obtain ⟨hlearned, hsettled⟩ := Poll.learned?_home hh ha hd hb
  refine (Fetch.settleHome_ensures p.known h a d b).bind ?_
  rintro es _ ⟨rfl, rfl⟩
  refine Act.ensures_pure (.of_settlements (by simp) hlearned ?_)
  rw [hsettled, htaken]
  rfl

theorem Fetch.proceed_home_ensures {p : Poll} {heaters : Pending .heaters}
    {alarm : Pending .alarm} {alerts : Pending .devicesWithAlert} {ble : Pending .ble}
    (hheaters : heaters.outcome? = p.answers .heaters)
    (halarm : alarm.outcome? = p.answers .alarm)
    (halerts : alerts.outcome? = p.answers .devicesWithAlert)
    (hble : ble.outcome? = p.answers .ble) (htaken : p.taken = []) (scene : Scene) :
    ((Fetch.home p.known heaters alarm alerts ble).proceed scene).Ensures
      (Progress.Follows p .home scene) := by
  refine (Pending.proceed_ensures scene heaters).bind ?_
  rintro es₁ heaters' ⟨h₁, hheaters', hlate₁⟩
  refine (Pending.proceed_ensures scene alarm).bind ?_
  rintro es₂ alarm' ⟨h₂, halarm', hlate₂⟩
  refine (Pending.proceed_ensures scene alerts).bind ?_
  rintro es₃ alerts' ⟨h₃, halerts', hlate₃⟩
  refine (Pending.proceed_ensures scene ble).bind ?_
  rintro es₄ ble' ⟨h₄, hble', hlate₄⟩
  have hcall := isCall_home h₁ h₂ h₃ h₄
  obtain ⟨a₁, a₂, a₃, a₄⟩ := Script.answer?_home scene.script h₁ h₂ h₃ h₄
  rw [hheaters, ← a₁] at hheaters'
  rw [halarm, ← a₂] at halarm'
  rw [halerts, ← a₃] at halerts'
  rw [hble, ← a₄] at hble'
  have htaken' := (p.see_taken_of_isCall scene.script hcall).trans htaken
  split
  · rename_i h a d b hh ha hd hb
    have hend := Fetch.settleHome_follows (hheaters'.symm.trans hh) (halarm'.symm.trans ha)
      (halerts'.symm.trans hd)
      (hble'.symm.trans hb) htaken' scene
    refine hend.mono fun es r hr => ?_
    have hafter := hr.after fun e he => .inl (hcall e he)
    simpa only [List.append_assoc] using hafter
  · rename_i hmissing
    refine Act.ensures_pure ?_
    rw [List.append_nil]
    exact .of_calls hcall (.home hheaters' halarm' halerts' hble' htaken')
      (Fetch.sleepsUntil_home hmissing hlate₁ hlate₂ hlate₃ hlate₄)

theorem Fetch.proceed_plain_ensures {p : Poll} {v : PlainView} {pending : Pending v.call}
    (hpending : pending.outcome? = p.answers v.call) (htaken : p.taken = []) (scene : Scene) :
    ((Fetch.plain v pending).proceed scene).Ensures (Progress.Follows p v.kind scene) := by
  refine (Pending.proceed_ensures scene pending).bind ?_
  rintro es pending' ⟨habout, hout, hlate⟩
  have hcall : ∀ e ∈ es, e.isCall = true := fun e he => (habout e he).isCall
  have htaken' := (p.see_taken_of_isCall scene.script hcall).trans htaken
  rw [hpending] at hout
  split
  · rename_i hnone
    refine Act.ensures_pure ?_
    rw [List.append_nil]
    exact .of_calls hcall (.plain hout htaken') (Fetch.sleepsUntil_single rfl hnone hlate)
  · rename_i o hsome
    have hans : (p.see scene.script es).answers v.call = some o := hout.symm.trans hsome
    refine Act.Ensures.mono ?_ fun es' r => Progress.Follows.after fun e he => .inl (hcall e he)
    generalize p.see scene.script es = q at hans htaken'
    refine (Act.settle_ensures v.call o).bind ?_
    rintro _ _ ⟨rfl, rfl⟩
    refine Act.ensures_pure (.of_settlements (by simp) ?_ ?_)
    · rw [Poll.learned?_plain, hans]
      rfl
    · rw [Poll.settled_plain, Answers.settlement, hans, htaken']
      rfl

theorem Fetch.proceedOwner_ensures {p : Poll} {did : DeviceRef} {state : DeviceState}
    {owner : Owner} {pending : Pending owner.call}
    (hstate : p.answers (.device did) = some (.ok state))
    (howner : Owner.of? state = some owner) (hpending : pending.outcome? = p.answers owner.call)
    (htaken : p.taken = [.succeed (.device did)]) (scene : Scene) :
    (Fetch.proceedOwner scene state owner pending).Ensures
      (Progress.Follows p (.device did) scene) := by
  refine (Pending.proceed_ensures scene pending).bind ?_
  rintro es pending' ⟨habout, hout, hlate⟩
  have hcall : ∀ e ∈ es, e.isCall = true := fun e he => (habout e he).isCall
  have htaken' := (p.see_taken_of_isCall scene.script hcall).trans htaken
  have hstate' := Poll.see_answers_of_some hstate scene.script es
  rw [hpending] at hout
  split
  · rename_i hnone
    refine Act.ensures_pure ?_
    rw [List.append_nil]
    exact .of_calls hcall (.controller hstate' howner hout htaken')
      (Fetch.sleepsUntil_single rfl hnone hlate)
  · rename_i o hsome
    have hans : (p.see scene.script es).answers owner.call = some o := hout.symm.trans hsome
    refine Act.Ensures.mono ?_ fun es' r => Progress.Follows.after fun e he => .inl (hcall e he)
    generalize p.see scene.script es = q at hans htaken' hstate'
    refine (Act.settle_ensures owner.call o).bind ?_
    rintro _ _ ⟨rfl, rfl⟩
    refine Act.ensures_pure (.of_settlements (by simp) ?_ ?_)
    · simp only [Poll.learned?, hstate', howner, hans, Option.map_some]
    · simp only [Poll.settled, Answers.settlement, hstate', howner, hans, htaken']
      rfl

/-- The call to the controller of a device that has answered is made, and may be
answered at once. -/
theorem Fetch.startOwner_ensures {p : Poll} {did : DeviceRef} {state : DeviceState}
    {owner : Owner} (hstate : p.answers (.device did) = some (.ok state))
    (howner : Owner.of? state = some owner) (hnone : p.answers owner.call = none)
    (htaken : p.taken = [.succeed (.device did)]) (scene : Scene) :
    (do Fetch.proceedOwner scene state owner (← Pending.start scene owner.call) :
      Act Progress).Ensures
      (Progress.Follows p (.device did) scene) := by
  refine (Pending.start_ensures scene owner.call).bind ?_
  rintro es pending ⟨habout, hout⟩
  have hcall : ∀ e ∈ es, e.isCall = true := fun e he => (habout e he).isCall
  refine Act.Ensures.mono ?_ fun es' r => Progress.Follows.after fun e he => .inl (hcall e he)
  refine Fetch.proceedOwner_ensures (Poll.see_answers_of_some hstate scene.script es)
    howner ?_ ?_ scene
  · rw [Poll.see_answers, hnone, Option.none_or]
    exact hout
  · exact (p.see_taken_of_isCall scene.script hcall).trans htaken

theorem Fetch.proceedDevice_ensures {p : Poll} {did : DeviceRef}
    {pending : Pending (.device did)} (hpending : pending.outcome? = p.answers (.device did))
    (howners : ∀ o : Owner, p.answers o.call = none) (htaken : p.taken = []) (scene : Scene) :
    (Fetch.proceedDevice scene did pending).Ensures
      (Progress.Follows p (.device did) scene) := by
  have hdevice (o : Owner) : Call.device did ≠ o.call := by cases o <;> simp [Owner.call]
  refine (Pending.proceed_ensures scene pending).bind ?_
  rintro es pending' ⟨habout, hout, hlate⟩
  have hcall : ∀ e ∈ es, e.isCall = true := fun e he => (habout e he).isCall
  have htaken' := (p.see_taken_of_isCall scene.script hcall).trans htaken
  have howners' (o : Owner) : (p.see scene.script es).answers o.call = none := by
    rw [Poll.see_answers, howners, Script.answer?_eq_none_of_about habout (hdevice o)]
    rfl
  rw [hpending] at hout
  split
  · rename_i hnone
    refine Act.ensures_pure ?_
    rw [List.append_nil]
    exact .of_calls hcall (.device hout howners' htaken')
      (Fetch.sleepsUntil_single rfl hnone hlate)
  · rename_i o hsome
    have hans : (p.see scene.script es).answers (.device did) = some o := hout.symm.trans hsome
    refine Act.Ensures.mono ?_ fun es' r => Progress.Follows.after fun e he => .inl (hcall e he)
    -- the rest is told of the poll as it was seen up to the answer
    generalize p.see scene.script es = q at hans howners' htaken'
    refine (Act.settle_ensures (.device did) o).bind ?_
    rintro _ _ ⟨rfl, rfl⟩
    cases o with
    | error e =>
      refine Act.ensures_pure (.of_settlements (by simp) ?_ ?_)
      · simp only [Poll.learned?, hans]
      · simp only [Poll.settled, Answers.settlement, hans, htaken']
        rfl
    | ok state =>
      simp only [Except.toOption]
      cases howner : Owner.of? state with
      | none =>
        refine Act.ensures_pure (.of_settlements (by simp) ?_ ?_)
        · simp only [Poll.learned?, hans, howner]
        · simp only [Poll.settled, Answers.settlement, hans, howner, htaken']
          rfl
      | some owner =>
        have hsettle : ∀ e ∈ [Effect.ofOutcome (.device did) (.ok state)],
          e.isSettlement = true := by simp
        refine Act.Ensures.mono ?_ fun es' r => Progress.Follows.after fun e he =>
          .inr (hsettle e he)
        rw [q.see_of_isSettlement scene.script hsettle]
        have hsettled : q.taken ++ [Effect.ofOutcome (.device did) (.ok state)] =
            [.succeed (.device did)] := by
          rw [htaken']
          rfl
        exact Fetch.startOwner_ensures
          (p := { q with taken := q.taken ++ [.ofOutcome (.device did) (.ok state)] })
          hans howner (howners' owner) hsettled scene

/-- A fetch goes on as its poll says: while an answer is awaited it agrees with the poll, and it
ends with what the poll has learned. -/
theorem Fetch.proceed_ensures {p : Poll} {kind : ViewKind} {f : Fetch} (h : f.Agrees p kind)
    (scene : Scene) : (f.proceed scene).Ensures (Progress.Follows p kind scene) := by
  cases h with
  | home hheaters halarm halerts hble htaken =>
    exact Fetch.proceed_home_ensures hheaters halarm halerts hble htaken scene
  | plain hpending htaken => exact Fetch.proceed_plain_ensures hpending htaken scene
  | device hpending howners htaken =>
    exact Fetch.proceedDevice_ensures hpending howners htaken scene
  | controller hstate howner hpending htaken =>
    exact Fetch.proceedOwner_ensures hstate howner hpending htaken scene

end HouseBoard
