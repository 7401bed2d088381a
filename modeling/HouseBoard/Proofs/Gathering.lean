/-
HouseBoard.Proofs.Gathering — the four calls of the home view, in whatever order
they are answered.

A poll of the home view makes its four calls at once and takes up nothing before the last of
them is answered.  So what it learns, how it is counted and which messages it makes depend on
what the controller answers and not on how long each call takes; how long they take decides
about one thing only, the instant at which all this comes about.  `Fetch.Gathers` is how a fetch
of the home view stands at an instant: each call is answered, or it is due as long after the
beginning as it takes.  `Board.Gathers` is what a poll that opens on a board does, and the main
statement says that it is the same on two boards whose controllers give the same answers.
-/
import HouseBoard.Proofs.Accounts
import HouseBoard.Proofs.Duration
import HouseBoard.Proofs.Freshness

namespace HouseBoard

/-! ## Section 1 — the answers of a script, and the time they take -/

namespace Script

/-- Two scripts that give the same answers, however long these take. -/
def AnswersAs (s s' : Script) : Prop := { s with delays := [] } = { s' with delays := [] }

/-- The time that a call takes, which may be none. -/
def time (s : Script) (c : Call) : Nat := (s.delayOf c).getD 0

/-- The time that the longest of the four calls of the home view takes. -/
def homeTime (s : Script) : Nat :=
  max (max (s.time .heaters) (s.time .alarm)) (max (s.time .devicesWithAlert) (s.time .ble))

/-- What the home view learns if sections are known already. -/
def homeLearned (s : Script) (known : HomeSnapshot) : Option Snapshot :=
  Poll.learnedHome known (s.outcome .heaters) (s.outcome .alarm) (s.outcome .devicesWithAlert)
    (s.outcome .ble)

/-- How the answers to the home view are taken up. -/
def homeSettled (s : Script) : List Effect :=
  [.ofOutcome .heaters (s.outcome .heaters), .ofOutcome .alarm (s.outcome .alarm),
    .ofOutcome .devicesWithAlert (s.outcome .devicesWithAlert),
    .ofOutcome .ble (s.outcome .ble)]

variable {s s' : Script}

theorem AnswersAs.refl (s : Script) : s.AnswersAs s := rfl

theorem AnswersAs.outcome_eq (h : s.AnswersAs s') (c : Call) : s.outcome c = s'.outcome c := by
  unfold AnswersAs at h
  have hsame := congrArg (fun s : Script => s.outcome c) h
  cases c <;> exact hsame

theorem AnswersAs.home_eq (h : s.AnswersAs s') (known : HomeSnapshot) :
    s.homeLearned known = s'.homeLearned known ∧ s.homeSettled = s'.homeSettled := by
  simp only [homeLearned, homeSettled, h.outcome_eq, and_self]

end Script

/-! ## Section 2 — calls and fetches -/

section

variable {s : Script} {scene : Scene} {known : HomeSnapshot} {began now : Nat}

/-- How a call that was made at an instant stands at a later one: it is due when its time is
over, or its time is over and it has the answer of the script. -/
def Pending.Since {c : Call} (s : Script) (began now : Nat) : Pending c → Prop
  | .waiting due _ => due = began + s.time c
  | .answered o => o = s.outcome c ∧ began + s.time c ≤ now

namespace Pending

variable {c : Call} {p : Pending c}

theorem Since.mono {n : Nat} (h : p.Since s began now) (hle : now ≤ n) : p.Since s began n := by
  cases p with
  | waiting due stamp => exact h
  | answered o => exact ⟨h.1, Nat.le_trans h.2 hle⟩

theorem Since.timer_eq (h : p.Since s began now) : ∀ e ∈ p.timer?, e.1 = began + s.time c := by
  cases p with
  | waiting due stamp =>
    intro e he
    cases he
    exact h
  | answered o => simp [timer?]

theorem Since.of_outcome? {o : Outcome c} (h : p.Since s began now) (ho : p.outcome? = some o) :
    o = s.outcome c ∧ began + s.time c ≤ now := by
  cases p with
  | waiting due stamp => cases ho
  | answered o' =>
    cases ho
    exact h

theorem start_since (scene : Scene) (c : Call) :
    (Pending.start scene c).Ensures fun es p =>
      (∀ e ∈ es, e.IsAbout c) ∧ p.Since scene.script scene.now scene.now := by
  refine (start_cases scene c).mono fun es p h => ?_
  obtain ⟨ms, stamp, hdelay, rfl, rfl⟩ | ⟨hdelay, rfl, rfl⟩ := h
  · simp [Effect.IsAbout, Since, Script.time, hdelay]
  · simp [Effect.IsAbout, Since, Script.time, hdelay]

theorem Since.proceed (h : p.Since s began scene.now) (hscript : scene.script.AnswersAs s) :
    (p.proceed scene).Ensures fun es p' => (∀ e ∈ es, e.IsAbout c) ∧
    p'.Since s began scene.now := by
  refine (proceed_cases scene p).mono fun es p' hp => ?_
  obtain ⟨rfl, rfl, _⟩ | ⟨due, stamp, rfl, hdue, rfl, rfl⟩ := hp
  · exact ⟨by simp, h⟩
  · have hsince : due = began + s.time c := h
    exact ⟨by simp [Effect.IsAbout], hscript.outcome_eq c, hsince ▸ hdue⟩

end Pending

/-- How a fetch of the home view that began at an instant stands at a later one. -/
inductive Fetch.Gathers (s : Script) (known : HomeSnapshot) (began now : Nat) :
    Fetch → Prop where
  | home {heaters : Pending .heaters} {alarm : Pending .alarm}
      {alerts : Pending .devicesWithAlert} {ble : Pending .ble}
      (hheaters : heaters.Since s began now) (halarm : alarm.Since s began now)
      (halerts : alerts.Since s began now) (hble : ble.Since s began now)
      (hnow : now ≤ began + s.homeTime) :
      Gathers s known began now (.home known heaters alarm alerts ble)

/-- What a piece of a fetch of the home view has to meet: it makes calls only, or ends with all
that the script answers when the longest call is over. -/
def Progress.Gathers (s : Script) (known : HomeSnapshot) (began now : Nat) (es : List Effect) :
    Progress → Prop
  | .underway f => (∀ e ∈ es, e.isCall = true) ∧ f.Gathers s known began now
  | .ended learned => (∀ e ∈ es, e.isQuiet = true) ∧ learned = s.homeLearned known ∧
      settlements es = s.homeSettled ∧ now = began + s.homeTime

theorem Script.isSettlement_of_mem_homeSettled :
    ∀ e ∈ s.homeSettled, e.isSettlement = true := by
  simp [Script.homeSettled]

/-- A fetch of the home view ends with its four answers after its calls. -/
theorem Progress.Gathers.of_calls {es : List Effect} (hcall : ∀ e ∈ es, e.isCall = true)
    (hover : now = began + s.homeTime) :
    Progress.Gathers s known began now (es ++ s.homeSettled)
      (.ended (s.homeLearned known)) := by
  refine ⟨fun e he => ?_, rfl, ?_, hover⟩
  · rcases List.mem_append.mp he with he | he
    · exact Effect.isQuiet_of_or (.inl (hcall e he))
    · exact Effect.isQuiet_of_or (.inr (Script.isSettlement_of_mem_homeSettled e he))
  · rw [settlements_append, settlements_eq_nil_of_isCall hcall, List.nil_append]
    exact List.filter_eq_self.mpr Script.isSettlement_of_mem_homeSettled

namespace Fetch

/-- No call of the home view is due after the longest one. -/
theorem Gathers.timers_le {f : Fetch} (h : f.Gathers s known began now) :
    ∀ e ∈ f.timers, e.1 ≤ began + s.homeTime := by
  intro e he
  cases h with
  | home hheaters halarm halerts hble hnow =>
    unfold Script.homeTime
    rcases mem_timers_home.mp he with he | he | he | he
    · rw [hheaters.timer_eq e he]
      omega
    · rw [halarm.timer_eq e he]
      omega
    · rw [halerts.timer_eq e he]
      omega
    · rw [hble.timer_eq e he]
      omega

/-- Time that passes while a fetch sleeps does not pass beyond the longest call. -/
theorem Gathers.le_of_sleeps {f : Fetch} {n : Nat} (h : f.Gathers s known began now)
    (hsleeps : f.SleepsUntil n) : n ≤ began + s.homeTime := by
  obtain ⟨e, he⟩ := List.exists_mem_of_ne_nil _ hsleeps.1
  exact Nat.le_trans (hsleeps.2 e he) (h.timers_le e he)

theorem Gathers.pass {f : Fetch} {n : Nat} (h : f.Gathers s known began now) (hn : now ≤ n)
    (hsleeps : f.SleepsUntil n) : f.Gathers s known began n := by
  have hle := h.le_of_sleeps hsleeps
  cases h with
  | home hheaters halarm halerts hble hnow =>
    exact .home (hheaters.mono hn) (halarm.mono hn) (halerts.mono hn) (hble.mono hn) hle

/-- A fetch of the home view makes its four calls. -/
theorem start_gathers (scene : Scene) :
    (Fetch.start scene .home).Ensures fun es f =>
      (∀ e ∈ es, e.isCall = true) ∧
        f.Gathers scene.script (Snapshot.sections scene.known) scene.now scene.now := by
  refine (Pending.start_since scene .heaters).bind ?_
  rintro es₁ heaters ⟨h₁, hheaters⟩
  refine (Pending.start_since scene .alarm).bind ?_
  rintro es₂ alarm ⟨h₂, halarm⟩
  refine (Pending.start_since scene .devicesWithAlert).bind ?_
  rintro es₃ alerts ⟨h₃, halerts⟩
  refine (Pending.start_since scene .ble).bind ?_
  rintro es₄ ble ⟨h₄, hble⟩
  refine Act.ensures_pure ?_
  rw [List.append_nil]
  exact ⟨isCall_home h₁ h₂ h₃ h₄, .home hheaters halarm halerts hble (Nat.le_add_right _ _)⟩

/-- The four answers are taken up together, when the longest call is over. -/
theorem Gathers.proceed {f : Fetch} (h : f.Gathers s known began scene.now)
    (hscript : scene.script.AnswersAs s) :
    (f.proceed scene).Ensures (Progress.Gathers s known began scene.now) := by
  cases h with
  | home hheaters halarm halerts hble hnow =>
    refine (hheaters.proceed hscript).bind ?_
    rintro es₁ heaters' ⟨h₁, hheaters'⟩
    refine (halarm.proceed hscript).bind ?_
    rintro es₂ alarm' ⟨h₂, halarm'⟩
    refine (halerts.proceed hscript).bind ?_
    rintro es₃ alerts' ⟨h₃, halerts'⟩
    refine (hble.proceed hscript).bind ?_
    rintro es₄ ble' ⟨h₄, hble'⟩
    have hcall := isCall_home h₁ h₂ h₃ h₄
    split
    · rename_i o₁ o₂ o₃ o₄ ho₁ ho₂ ho₃ ho₄
      obtain ⟨rfl, hover₁⟩ := hheaters'.of_outcome? ho₁
      obtain ⟨rfl, hover₂⟩ := halarm'.of_outcome? ho₂
      obtain ⟨rfl, hover₃⟩ := halerts'.of_outcome? ho₃
      obtain ⟨rfl, hover₄⟩ := hble'.of_outcome? ho₄
      -- each call is over, and none is due after the longest one
      have hover : scene.now = began + s.homeTime := by
        refine Nat.le_antisymm hnow ?_
        unfold Script.homeTime
        omega
      refine (settleHome_ensures known _ _ _ _).bind ?_
      rintro _ _ ⟨rfl, rfl⟩
      refine Act.ensures_pure ?_
      simp only [List.append_nil, ← List.append_assoc]
      simp only [← List.append_assoc] at hcall
      exact .of_calls hcall hover
    · refine Act.ensures_pure ?_
      rw [List.append_nil]
      exact ⟨hcall, .home hheaters' halarm' halerts' hble' hnow⟩

end Fetch

namespace ViewTask

variable {t t' : ViewTask}

/-- The task of a home view with a fetch on its way. -/
def Gathers (s : Script) (known : HomeSnapshot) (began now : Nat) (t : ViewTask) : Prop :=
  t.kind = .home ∧ ∃ f, t.fetch = some f ∧ f.Gathers s known began now

theorem Gathers.congr (h : t.Gathers s known began now) (hkind : t'.kind = t.kind)
    (hfetch : t'.fetch = t.fetch) : t'.Gathers s known began now := by
  unfold Gathers
  rw [hkind, hfetch]
  exact h

/-- What a move of the task of a home view comes to while a fetch is on its way: it takes up
nothing, or it takes up all four answers when the longest call is over, and keeps what is
learned from them. -/
inductive Gathered (s : Script) (known : HomeSnapshot) (began now : Nat) (t' : ViewTask) :
    List Effect → Prop where
  | underway {es : List Effect} (hnone : ∀ e ∈ es, e.isSettlement = false)
      (h : t'.Gathers s known began now) :
      Gathered s known began now t' es
  | ended {es : List Effect} (hfetch : t'.fetch = none)
      (hsettled : settlements es = s.homeSettled)
      (hkept : ∀ wall slot, es.foldl (Slot.take wall) slot =
        ((s.homeLearned known).map Effect.commit).toList.foldl (Slot.take wall) slot)
      (hover : now = began + s.homeTime) : Gathered s known began now t' es

/-- Settlements that are followed by what is learned from them. -/
theorem Gathered.of_settled {es : List Effect} (hfetch : t'.fetch = none)
    (hquiet : ∀ e ∈ es, e.isQuiet = true) (hsettled : settlements es = s.homeSettled)
    (hover : now = began + s.homeTime) :
    t'.Gathered s known began now (es ++ ((s.homeLearned known).map Effect.commit).toList) := by
  refine .ended hfetch ?_ (fun wall slot => ?_) hover
  · rw [settlements_append, hsettled]
    cases s.homeLearned known <;> exact List.append_nil _
  · rw [List.foldl_append, Slot.foldl_take_of_isQuiet hquiet]

/-- The answers to the home view are taken up. -/
theorem Gathers.proceed (h : t.Gathers s known began scene.now)
    (hscript : scene.script.AnswersAs s) :
    (t.proceed scene).Ensures fun es t' => t'.Gathered s known began scene.now es := by
  obtain ⟨hkind, f, hfetch, hf⟩ := h
  simp only [ViewTask.proceed, hfetch]
  refine (hf.proceed hscript).bind ?_
  intro es r hr
  cases r with
  | underway f' =>
    obtain ⟨hcall, hf'⟩ := hr
    refine Act.ensures_pure ?_
    rw [List.append_nil]
    exact .underway (fun e he => Effect.isSettlement_of_isCall (hcall e he))
      ⟨hkind, f', rfl, hf'⟩
  | ended learned =>
    obtain ⟨hquiet, rfl, hsettled, hover⟩ := hr
    have hended : ViewTask.Gathered s known began scene.now { t with fetch := none } _ :=
      .of_settled rfl hquiet hsettled hover
    cases hlearned : s.homeLearned known with
    | none =>
      rw [hlearned] at hended
      exact Act.ensures_pure hended
    | some snapshot =>
      rw [hlearned] at hended
      refine (Act.ensures_emit (P := fun es' _ => es' = [.commit snapshot]) rfl).bind ?_
      rintro _ ⟨⟩ rfl
      exact Act.ensures_pure hended

end ViewTask

end

/-! ## Section 3 — steps and runs -/

/-- A poll of a home view that starts makes its four calls. -/
theorem Board.turn_poll_gathers {b : Board} {t : ViewTask} (hkind : t.kind = .home) :
    (b.turn t .poll).1.Gathers b.script (Snapshot.sections (b.scene t.id).known) b.now b.now ∧
      ∀ e ∈ (b.turn t .poll).2.effects, e.isCall = true := by
  have hstart : (t.startPoll b.intervals (b.scene t.id)).Ensures fun es t' =>
      t'.Gathers b.script (Snapshot.sections (b.scene t.id).known) b.now b.now ∧ ∀ e ∈ es,
        e.isCall = true := by
    unfold ViewTask.startPoll
    rw [hkind]
    refine (Fetch.start_gathers (b.scene t.id)).bind ?_
    rintro es f ⟨hcall, hf⟩
    refine Act.ensures_pure ?_
    rw [List.append_nil]
    exact ⟨⟨rfl, f, rfl, hf⟩, hcall⟩
  exact b.turn_meets (m := .poll) hstart

/-- What each move of the task of a home view comes to while a fetch is on its way. -/
theorem Board.turn_gathers {b : Board} {t : ViewTask} {m : Move} {s : Script}
    {known : HomeSnapshot} {began : Nat} (h : t.Gathers s known began b.now)
    (hscript : b.script.AnswersAs s) (hallows : t.Allows b.now m) :
    (b.turn t m).1.Gathered s known began b.now (b.turn t m).2.effects := by
  obtain ⟨hkind, f, hfetch, hf⟩ := h
  have hgathers : t.Gathers s known began (b.scene t.id).now := ⟨hkind, f, hfetch, hf⟩
  cases m with
  | answers => exact b.turn_meets (m := .answers) (hgathers.proceed hscript)
  | poll =>
    -- no poll starts while a fetch is on its way
    simp [ViewTask.Allows, ViewTask.pollsAt, hfetch] at hallows
  | tick =>
    have hkept := hgathers.congr (b.turn_kind t .tick) (b.turn_tick t).2.1
    refine .underway ?_ hkept
    rcases b.turn_tick_effects t with hes | hes
    · rw [hes]
      simp [Effect.isSettlement]
    · rw [hes]
      simp
  | rest =>
    have hkept := hgathers.congr (b.turn_kind t .rest) (b.turn_rest t).2.2.1
    exact .underway (by simp [b.turn_rest_effects t]) hkept

/-- A step that does not end the poll of a home view leaves its fetch on its way. -/
theorem Step.gathers {b b' : Board} {x : Happening} {id : ViewId} {s : Script}
    {known : HomeSnapshot} {began : Nat} (h : Step b x b') (htidy : b.Tidy)
    (hid : id < b.nextId) (hclosed : Happening.closes id [x] = [])
    (hscript : b.script.AnswersAs s)
    (hb : ∀ t, b.task? id = some t → t.Gathers s known began b.now) :
    ∀ t, b'.task? id = some t → t.Gathers s known began b'.now := by
  intro t' ht'
  cases h.origin htidy ht' with
  | other hx ht =>
    obtain ⟨hkind, f, hfetch, hf⟩ := hb t' ht
    rcases h.now_cases with hnow | ⟨n, _, hn, hsleeps, rfl⟩
    · rw [hnow]
      exact ⟨hkind, f, hfetch, hf⟩
    · have hlate := (hsleeps t' (Board.task?_mem ht')).2.1
      rw [ViewTask.AwaitsUntil, hfetch] at hlate
      exact ⟨hkind, f, hfetch, hf.pass (Nat.le_of_lt hn) hlate⟩
  | mounted hnext => exact absurd hnext (Nat.ne_of_lt hid)
  | @dropped t ht =>
    rw [h.now_eq (by simp)]
    exact (hb t ht).congr rfl rfl
  | @moved t m ht hallows =>
    rw [h.now_eq (by simp)]
    have hbefore := hb t ht
    have hgathered := b.turn_gathers hbefore hscript hallows
    generalize (b.turn t m).2.effects = es at hgathered hclosed
    cases hgathered with
    | underway hnone hkept => exact hkept
    | ended hfetch =>
      obtain ⟨_, f, hf, _⟩ := hbefore
      simp [Happening.closes, Happening.closedAt?, hf, hfetch] at hclosed

/-- A poll of a view has opened on a board and has not closed since, while the controller gave
the same answers. -/
inductive Board.Underway (b : Board) (id : ViewId) : List Happening → Board → Prop where
  | mk {b₁ b₂ : Board} {w : Moment} {es : List Effect} {h : List Happening}
      (hopen : Step b (.moved id .poll w es false) b₁) (hrun : Run b₁ h b₂)
      (hclosed : Happening.closes id h = [])
      (hscript : Happening.Scripted (·.AnswersAs b.script) h) :
      Underway b id (.moved id .poll w es false :: h) b₂

/-- A run in which the poll of a home view does not end leaves its fetch on its way. -/
theorem Run.gathers {b b' : Board} {h : List Happening} {id : ViewId} {s : Script}
    {known : HomeSnapshot} {began : Nat} (hrun : Run b h b') (htidy : b.Tidy)
    (hid : id < b.nextId) (hclosed : Happening.closes id h = [])
    (hscript : b.script.AnswersAs s) (hh : Happening.Scripted (·.AnswersAs s) h)
    (hb : ∀ t, b.task? id = some t → t.Gathers s known began b.now) :
    ∀ t, b'.task? id = some t → t.Gathers s known began b'.now := by
  induction hrun with
  | refl => exact hb
  | step hrun₁ hstep ih =>
    rw [Happening.closes_append, List.append_eq_nil_iff] at hclosed
    exact hstep.gathers (hrun₁.tidy htidy) (Nat.lt_of_lt_of_le hid hrun₁.nextId_le) hclosed.2
      (hrun₁.script hscript hh.append_left) (ih hclosed.1 hh.append_left)

namespace Board.Underway

variable {b b₂ : Board} {id : ViewId} {h : List Happening} {slot : Slot}

theorem sound (hu : b.Underway id h b₂) (htidy : b.Tidy) (hsound : b.Sound) : b₂.Sound := by
  cases hu with
  | mk hopen hrun => exact hrun.sound (hopen.tidy htidy) (hopen.sound htidy hsound)

/-- While the poll of a home view is on its way, its fetch waits for the answers of
the script. -/
theorem gathers (hu : b.Underway id h b₂) (htidy : b.Tidy) (hslot : b.store.get? id = some slot)
    (hsound : b.Sound) (hkind : slot.kind = .home) :
    b₂.script.AnswersAs b.script ∧ ∀ t, b₂.task? id = some t →
      t.Gathers b.script (Snapshot.sections slot.snapshot) b.now b₂.now := by
  cases hu with
  | @mk b₁ _ w es h hopen hrun hclosed hscript =>
    obtain ⟨t, ht, _, _, _, _, _, htask, _⟩ := hopen.of_moved
    have hlt : id < b₁.nextId := Nat.lt_of_lt_of_le (htidy.lt_of_get? hslot) hopen.nextId_le
    have hsame := hopen.script_eq (by simp)
    have hfirst : ∀ t, b₁.task? id = some t →
        t.Gathers b.script (Snapshot.sections slot.snapshot) b.now b₁.now := by
      intro t' ht'
      rw [htask] at ht'
      cases ht'
      obtain ⟨slot', hslot', hs⟩ := hsound id t ht
      rw [hslot] at hslot'
      cases hslot'
      have hknown : (b.scene t.id).known = slot.snapshot := by
        rw [Board.task?_id ht]
        simp [Board.scene, hslot]
      rw [hopen.now_eq (by simp), ← hknown]
      exact (Board.turn_poll_gathers (hs.kind_eq.symm.trans hkind)).1
    have hfits : b₁.script.AnswersAs b.script := by
      rw [hsame]
      exact .refl _
    exact ⟨hrun.script hfits hscript,
      hrun.gathers (hopen.tidy htidy) hlt hclosed hfits hscript hfirst⟩

/-- While the poll of a home view is on its way, nothing is taken up and the slot
only grows older. -/
theorem unsettled (hu : b.Underway id h b₂) (htidy : b.Tidy)
    (hslot : b.store.get? id = some slot) (hsound : b.Sound) (hkind : slot.kind = .home)
    {t : ViewTask} (ht : b₂.task? id = some t) :
    settlements (Happening.effects id h) = [] ∧
    b₂.store.get? id = some (slot.aged (Happening.ticks id h)) := by
  cases hu with
  | @mk b₁ _ w es h hopen hrun hclosed hscript =>
    obtain ⟨slot', hslot', hticks, hpolls⟩ := hrun.polls_of_open hopen hclosed htidy hsound
    rw [hslot] at hslot'
    cases hslot'
    obtain ⟨_, ⟨f, _, hagrees⟩, hslot₂⟩ := hpolls t ht
    rw [hkind] at hagrees
    have hall : Happening.ticks id (.moved id .poll w es false :: h) =
        Happening.ticks id h := by
      rw [← List.singleton_append, Happening.ticks_append, Happening.ticks,
        Happening.effects_moved, hticks, Nat.zero_add]
    rw [hall]
    exact ⟨(b.poll_taken id _).symm.trans hagrees.taken_home, hslot₂⟩

end Board.Underway

/-! ## Section 4 — what the end of a poll leaves behind -/

/-- All failures are settlements. -/
theorem filterMap_failure?_settlements (es : List Effect) :
    (settlements es).filterMap Effect.failure? = es.filterMap Effect.failure? := by
  rw [settlements, List.filterMap_filter]
  congr 1
  funext e
  cases e <;> rfl

/-- Nothing but settlements is counted. -/
theorem Books.Counts.of_settlements {k k' : Books} {es : List Effect} (h : k.Counts k' es) :
    k.Counts k' (settlements es) := by
  have hsuccess : (settlements es).countP Effect.isSuccess = es.countP Effect.isSuccess := by
    rw [settlements, List.countP_filter]
    congr 1
    funext e
    cases e <;> rfl
  obtain ⟨hsucceeded, hfailed, hlast⟩ := h
  refine ⟨?_, ?_, ?_⟩
  · rw [hsuccess, hsucceeded]
  · rw [filterMap_failure?_settlements, hfailed]
  · rw [filterMap_failure?_settlements, hlast]

/-- A failure that is to be reported is the last of its settlements, too. -/
theorem settlements_upToReport (es : List Effect) :
    settlements (Effect.upToReport es) = Effect.upToReport (settlements es) := by
  induction es with
  | nil => rfl
  | cons e es ih =>
    cases hreported : e.isReported with
    | true =>
      obtain ⟨c, e', rfl, _⟩ := Effect.isReported_iff.mp hreported
      have hsettles : (Effect.fail c e').isSettlement = true := rfl
      rw [Effect.upToReport, hreported, if_pos rfl, settlements, settlements,
        List.filter_cons_of_pos hsettles, List.filter_cons_of_pos hsettles, Effect.upToReport,
        hreported, if_pos rfl]
      rfl
    | false =>
      unfold settlements at ih ⊢
      rw [Effect.upToReport, hreported, if_neg Bool.false_ne_true, List.filter_cons,
        List.filter_cons, ih]
      split
      · rw [Effect.upToReport, hreported, if_neg Bool.false_ne_true]
      · rfl

/-- No message is made that does not expire within the calendar. -/
theorem Books.foldl_post_notifier {wall : Int} {k : Books} (hnot : ¬ k.notifier.Lasts wall)
    (es : List Effect) : (es.foldl (Books.post wall) k).notifier = k.notifier := by
  induction es generalizing k with
  | nil => rfl
  | cons e es ih =>
    have hsame : (k.post wall e).notifier = k.notifier := by
      cases e with
      | fail c e =>
        by_cases hcode : e.code = .unknown
        · simp [post, Notifier.reportError, hcode]
        · simp only [post, Notifier.reportError_eq_error_iff.mpr ⟨hcode, hnot⟩]
      | _ => rfl
    rw [List.foldl_cons, ih (by rwa [hsame]), hsame]

/-- A task that can go on has only messages to make that expire within the calendar. -/
theorem Step.lasts_of_moved {b b' : Board} {id : ViewId} {m : Move} {w : Moment}
    {es : List Effect} {ended : Bool} (h : Step b (.moved id m w es ended) b') :
    ∀ e ∈ es, e.isReported = true → b.notifier.Lasts b.wall := by
  intro x hx hreported
  obtain ⟨c, e, rfl, hcode⟩ := Effect.isReported_iff.mp hreported
  cases h with
  | @move _ t _ ht hcancelled hm hperforms =>
    by_contra hnot
    have hfalse : b.performs t m = false :=
      Board.performAll_fst_eq_false_iff.mpr ⟨hnot, c, e, hx, hcode⟩
    rw [hfalse] at hperforms
    cases hperforms

/-! ## Section 5 — the poll of a home view -/

/-- What a poll of a view that opens on a board does: the state that it learns, if any, and how
the answers to its calls are taken up. -/
structure Board.Gathers (b : Board) (id : ViewId) (learned : Option Snapshot)
    (settled : List Effect) : Prop where
  /-- While the poll is on its way nothing is taken up, and the slot only grows older. -/
  before : ∀ h b₂ t, b.Underway id h b₂ → b₂.task? id = some t →
    settlements (Happening.effects id h) = [] ∧
      b₂.store.get? id = (b.store.get? id).map (·.aged (Happening.ticks id h))
  /-- When all is done at an instant, the poll is on its way no longer than its longest call. -/
  arrives : ∀ h b₂ t, b.Underway id h b₂ → b₂.task? id = some t → b₂.Quiet →
    b₂.now < b.now + b.script.homeTime
  /-- The poll closes when its longest call is over: its answers are counted, each failure makes
  its message and no other message is added, and the state that was learned, if any, is kept. -/
  closes : ∀ h b₂ w es b₃, b.Underway id h b₂ → Step b₂ (.moved id .answers w es true) b₃ →
    b₂.now = b.now + b.script.homeTime ∧ settlements es = settled ∧
      b₂.books.Counts b₃.books settled ∧
      (Books.pushes b₂.wall b₂.books es).map Toast.content =
        (settled.filterMap Effect.failure?).filterMap RpcError.notice? ∧
      b₃.notifier.toasts.Sublist (b₂.notifier.toasts ++ Books.pushes b₂.wall b₂.books es) ∧
      b₃.store.get? id = (b₂.store.get? id).map fun slot =>
        (learned.map Effect.commit).toList.foldl (Slot.take b₂.wall) slot
  /-- If a message does not expire within the calendar, the task gets as far as the failure that
  it is about, and nothing is kept. -/
  falls : ∀ h b₂ w b₃, b.Underway id h b₂ → Step b₂ (.fell id w) b₃ →
    b₂.now = b.now + b.script.homeTime ∧ b₂.books.Counts b₃.books (Effect.upToReport settled) ∧
      b₃.notifier = b₂.notifier ∧ b₃.store.get? id = b₂.store.get? id

/-- The poll of a home view learns what its script answers. -/
theorem Board.gathers {b : Board} {id : ViewId} {slot : Slot} (htidy : b.Tidy)
    (hsound : b.Sound) (hslot : b.store.get? id = some slot) (hkind : slot.kind = .home) :
    b.Gathers id (b.script.homeLearned (Snapshot.sections slot.snapshot))
      b.script.homeSettled where
  before h b₂ t hu ht := by
    obtain ⟨hnone, hslot₂⟩ := hu.unsettled htidy hslot hsound hkind ht
    rw [hslot, hslot₂]
    exact ⟨hnone, rfl⟩
  arrives h b₂ t hu ht hquiet := by
    obtain ⟨_, f, hfetch, hf⟩ := (hu.gathers htidy hslot hsound hkind).2 t ht
    have hlate := (hquiet t (Board.task?_mem ht)).2.1
    rw [ViewTask.AwaitsUntil, hfetch] at hlate
    exact hf.le_of_sleeps hlate
  closes h b₂ w es b₃ hu hclose := by
    obtain ⟨hscript, hgathers⟩ := hu.gathers htidy hslot hsound hkind
    have hlasts := hclose.lasts_of_moved
    obtain ⟨t, ht, _, hallows, _, hes, hended, _, hstore, hbooks⟩ := hclose.of_moved
    have hgathered := b₂.turn_gathers (hgathers t ht) hscript hallows
    rw [← hes] at hgathered
    cases hgathered with
    | underway _ hkept =>
      obtain ⟨_, f, hf, _⟩ := hkept
      simp [hf] at hended
    | ended _ hsettled hkept hover =>
      have hcounts := (Books.Counts.foldl_post b₂.wall es b₂.books).of_settlements
      obtain ⟨hcontent, hleft⟩ := Books.pushes_content (k := b₂.books) hlasts
      rw [← hbooks, hsettled] at hcounts
      rw [← filterMap_failure?_settlements, hsettled] at hcontent
      rw [← hbooks] at hleft
      refine ⟨hover, hsettled, hcounts, hcontent, hleft, ?_⟩
      simp only [hstore, hkept]
  falls h b₂ w b₃ hu hfall := by
    obtain ⟨hscript, hgathers⟩ := hu.gathers htidy hslot hsound hkind
    obtain ⟨_, _, hnot, _⟩ := hfall.of_fell
    obtain ⟨_, t, m, ht, _, hallows, ⟨es₀, c, e, hlast⟩, _, hbooks⟩ := hfall.failure_of_fell
    have hgathered := b₂.turn_gathers (hgathers t ht) hscript hallows
    generalize (b₂.turn t m).2.effects = es at hgathered hlast hbooks
    cases hgathered with
    | underway hnone _ =>
      have hmem : .fail c e ∈ es := (Effect.upToReport_prefix es).subset (by rw [hlast]; simp)
      have hfalse := hnone _ hmem
      cases hfalse
    | ended _ hsettled _ hover =>
      have hcounts :=
        (Books.Counts.foldl_post b₂.wall (Effect.upToReport es) b₂.books).of_settlements
      have hsame := Books.foldl_post_notifier (k := b₂.books) hnot (Effect.upToReport es)
      rw [← hbooks, settlements_upToReport, hsettled] at hcounts
      rw [← hbooks] at hsame
      exact ⟨hover, hcounts, hsame, hfall.slot_of_fell (hu.sound htidy hsound)⟩

/-- A cycle is a poll on its way that closes. -/
theorem Cycle.underway {id : ViewId} {b b₂ b₃ : Board} {cycle : List Happening}
    (hcycle : Cycle id b cycle b₂ b₃)
    (hscript : Happening.Scripted (·.AnswersAs b.script) cycle) :
    ∃ h w es, cycle = h ++ [.moved id .answers w es true] ∧ b.Underway id h b₂ ∧
      Step b₂ (.moved id .answers w es true) b₃ := by
  cases hcycle with
  | mk hopen hrun hclosed hclose =>
    have hmid : Happening.Scripted (·.AnswersAs b.script) _ := fun s wall hs =>
      hscript s wall (List.mem_cons_of_mem _ (List.mem_append_left _ hs))
    exact ⟨_, _, _, rfl, .mk hopen hrun hclosed hmid, hclose⟩

/-- A poll of a home view does not depend on how long its calls take.  Take any two boards on
which home views hold the same state, and on which the controllers give the same answers, each
in its own time.  Then the polls that open on them learn the same state or nothing, their
answers are taken up alike, and so they are counted alike, leave the same last failure and make
the same messages in the same order.  Each closes as long after it began as its own longest call
takes, and nothing is shown before. -/
theorem Run.home_polls_alike {s s' : Settings} {intervals intervals' : Intervals}
    {wall wall' : Int} {firstToast firstToast' : Uuid} {h h' : List Happening} {b b' : Board}
    {id id' : ViewId} {slot slot' : Slot}
    (hrun : Run (Board.start s intervals wall firstToast) h b)
    (hrun' : Run (Board.start s' intervals' wall' firstToast') h' b')
    (hslot : b.store.get? id = some slot) (hkind : slot.kind = .home)
    (hslot' : b'.store.get? id' = some slot') (hkind' : slot'.kind = .home)
    (hsnapshot : slot'.snapshot = slot.snapshot) (hscript : b'.script.AnswersAs b.script) :
    b.Gathers id (b.script.homeLearned (Snapshot.sections slot.snapshot)) b.script.homeSettled ∧
      b'.Gathers id' (b.script.homeLearned (Snapshot.sections slot.snapshot))
        b.script.homeSettled := by
  have htidy := Board.tidy_start s intervals wall firstToast
  have htidy' := Board.tidy_start s' intervals' wall' firstToast'
  have hsound := Board.sound_start s intervals wall firstToast
  have hsound' := Board.sound_start s' intervals' wall' firstToast'
  have hgathers := Board.gathers (hrun.tidy htidy) (hrun.sound htidy hsound) hslot hkind
  have hgathers' := Board.gathers (hrun'.tidy htidy') (hrun'.sound htidy' hsound') hslot' hkind'
  obtain ⟨hlearned, hsettled⟩ := hscript.home_eq (Snapshot.sections slot.snapshot)
  rw [hsnapshot, hlearned, hsettled] at hgathers'
  exact ⟨hgathers, hgathers'⟩

/-- A home view whose alarm is down and whose devices on the air are late: in one run the
heaters answer last, in the other the devices on the air do.  Either way two calls fail, and the
failure of the devices is the last one. -/
theorem Run.home_polls_alike_slowly :
    ∃ (b b₂ b₃ b' b₂' b₃' : Board) (h h' cycle cycle' : List Happening)
    (w w' : Moment) (es es' : List Effect),
    Run (Board.start {} ⟨200, 1000, by decide, by decide⟩ 0 ⟨0⟩) h b ∧
      Run (Board.start {} ⟨200, 1000, by decide, by decide⟩ 0 ⟨0⟩) h' b' ∧
      b'.script.AnswersAs b.script ∧
      b.Underway 1 cycle b₂ ∧ Step b₂ (.moved 1 .answers w es true) b₃ ∧ b₂.now = 30 ∧
      b'.Underway 1 cycle' b₂' ∧ Step b₂' (.moved 1 .answers w' es' true) b₃' ∧ b₂'.now = 70 ∧
      settlements es = settlements es' ∧ b₂.books.Counts b₃.books (settlements es) ∧
      b₂'.books.Counts b₃'.books (settlements es) ∧
      (settlements es).filterMap Effect.failure? =
        [⟨.unavailable, "down"⟩, ⟨.deadlineExceeded, "late"⟩] := by
  let script (delays : List (Endpoint × Nat)) : Script :=
    { heaters := some default, failures :=
      [(.alarm, ⟨.unavailable, "down"⟩), (.ble, ⟨.deadlineExceeded, "late"⟩)]
      delays }
  let b₀ := Board.start {} ⟨200, 1000, by decide, by decide⟩ 0 ⟨0⟩
  let mounted (s : Script) := ((b₀.attend (.script s)).hold .home).2
  let b := mounted (script [(.heaters, 30)])
  let b' := mounted (script [(.alarm, 40), (.ble, 70)])
  let b₂ := { b.move 1 .poll with now := 30 }
  let b₁' := { b'.move 1 .poll with now := 40 }
  let b₂' := { b₁'.move 1 .answers with now := 70 }
  have hrun (s : Script) : Run b₀ [.attended (.script s) 0, .mounted 1 .home 0] (mounted s) :=
    .cons (.attend b₀ _) <| .single (.hold _ .home)
  have hsleeps : (b.move 1 .poll).SleepsUntil 30 := by decide +kernel
  have hsleeps₁' : (b'.move 1 .poll).SleepsUntil 40 := by decide +kernel
  have halarm : Step b₁' (b₁'.moving 1 .answers) (b₁'.move 1 .answers) :=
    .of_canMove (by decide +kernel)
  have hsleeps₂' : (b₁'.move 1 .answers).SleepsUntil 70 := by decide +kernel
  have hwait : Run (b'.move 1 .poll) [.passed 40, b₁'.moving 1 .answers, .passed 70] b₂' :=
    .cons (.pass (by decide +kernel) hsleeps₁') <| .cons halarm <|
      .single (.pass (by decide +kernel) hsleeps₂')
  have hcycle : Cycle 1 b _ b₂ (b₂.move 1 .answers) :=
    .of_canMove (by decide +kernel) (.single (.pass (by decide +kernel) hsleeps)) rfl
      (by decide +kernel)
      (by decide +kernel)
  have hcycle' : Cycle 1 b' _ b₂' (b₂'.move 1 .answers) :=
    .of_canMove (by decide +kernel) hwait (by decide +kernel) (by decide +kernel)
      (by decide +kernel)
  obtain ⟨h, w, es, _, hu, hclose⟩ :=
    hcycle.underway (by intro s wall hs; simp [Board.moving] at hs)
  obtain ⟨h', w', es', _, hu', hclose'⟩ :=
    hcycle'.underway (by intro s wall hs; simp [Board.moving] at hs)
  have hslot (s : Script) : (mounted s).store.get? 1 = some { kind := .home } := rfl
  obtain ⟨hgathers, hgathers'⟩ :=
    Run.home_polls_alike (hrun _) (hrun _) (hslot (script [(.heaters, 30)])) rfl
    (hslot (script [(.alarm, 40), (.ble, 70)])) rfl rfl rfl
  obtain ⟨hnow, hsettled, hcounts, _⟩ := hgathers.closes _ _ _ _ _ hu hclose
  obtain ⟨hnow', hsettled', hcounts', _⟩ := hgathers'.closes _ _ _ _ _ hu' hclose'
  rw [← hsettled] at hcounts hcounts'
  exact ⟨b, b₂, _, b', b₂', _, _, _, h, h', w, w', es, es', hrun _, hrun _, rfl, hu, hclose,
    hnow, hu', hclose', hnow', hsettled.trans hsettled'.symm, hcounts, hcounts',
    by rw [hsettled]; decide +kernel⟩

end HouseBoard
