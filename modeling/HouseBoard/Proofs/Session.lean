/-
HouseBoard.Proofs.Session — whatever is asked of a dashboard is a run.

`Board.Leads` says that a board comes from another one by an orderly run and is in order, and
`Board.Flows` that it does so without errands.  Each operation of the board leads from what it
is given to what it returns: the passing of time (Section 2) and the mounting and unmounting of
views (Section 3), which need no errands, and commands and requests (Section 4).  So a session,
in which one thing is asked after the other, is an orderly run, and all is done whenever the
dashboard rests (Section 5).  What is proved of runs holds of sessions.
-/
import HouseBoard.Proofs.Route
import HouseBoard.Proofs.Schedule

namespace HouseBoard

/-! ## Section 1 — boards in order -/

theorem Board.SleepsUntil.mono {b : Board} {m n : Nat} (h : b.SleepsUntil n) (hle : m ≤ n) :
    b.SleepsUntil m :=
  fun t ht => (h t ht).mono hle

/-- No timer of a task that sleeps until an instant is due before it. -/
theorem ViewTask.SleepsUntil.le_of_mem_timers {t : ViewTask} {n : Nat} {e : Nat × Nat}
    (h : t.SleepsUntil n) (he : e ∈ t.timers) : n ≤ e.1 := by
  obtain ⟨_, hawaits, htick⟩ := h
  unfold timers at he
  unfold AwaitsUntil at hawaits
  have htimer {timer : Timer} (hdue : n ≤ timer.due)
      (hmem : e ∈ timer.entry?.toList) : n ≤ e.1 := by
    simp only [Timer.entry?, Option.mem_toList, Option.map_eq_some_iff] at hmem
    obtain ⟨stamp, _, rfl⟩ := hmem
    exact hdue
  cases hfetch : t.fetch with
  | some f =>
    rw [hfetch] at he hawaits
    rcases List.mem_append.mp he with he | he
    · exact hawaits.2 e he
    · exact htimer htick he
  | none =>
    rw [hfetch] at he hawaits
    rcases List.mem_append.mp he with he | he
    · exact htimer hawaits he
    · exact htimer htick he

namespace Board

variable {b b' b'' : Board} {id : ViewId} {kind : ViewKind}

/-- A board comes from another one by an orderly run and is in order. -/
def Leads (b b' : Board) : Prop := (∃ h, OrderlyRun b h b') ∧ b'.InOrder

theorem Leads.refl (hb : b.InOrder) : b.Leads b := ⟨⟨[], .refl b⟩, hb⟩

theorem Leads.trans (h : b.Leads b') (h' : b'.Leads b'') : b.Leads b'' := by
  obtain ⟨⟨trace, hrun⟩, _⟩ := h
  obtain ⟨⟨trace', hrun'⟩, hb''⟩ := h'
  exact ⟨⟨trace ++ trace', hrun.append hrun'⟩, hb''⟩

/-- A board comes from another one without errands, and is in order. -/
def Flows (b b' : Board) : Prop :=
  (∃ h, Run b h b' ∧ ∀ e wall, .attended e wall ∉ h) ∧ b'.InOrder

theorem Flows.refl (hb : b.InOrder) : b.Flows b := ⟨⟨[], .refl b, by simp⟩, hb⟩

theorem Flows.trans (h : b.Flows b') (h' : b'.Flows b'') : b.Flows b'' := by
  obtain ⟨⟨trace, hrun, hno⟩, _⟩ := h
  obtain ⟨⟨trace', hrun', hno'⟩, hb''⟩ := h'
  refine ⟨⟨trace ++ trace', hrun.append hrun', fun e wall hmem => ?_⟩, hb''⟩
  rcases List.mem_append.mp hmem with hmem | hmem
  · exact hno e wall hmem
  · exact hno' e wall hmem

/-- Without errands the controller answers as before. -/
theorem Flows.leads (h : b.Flows b') : b.Leads b' := by
  obtain ⟨⟨trace, hrun, hno⟩, hb'⟩ := h
  exact ⟨⟨trace, .of_run hrun fun x hx s wall heq => hno _ wall (heq ▸ hx)⟩, hb'⟩

theorem Flows.of_step {x : Happening} (hb : b.InOrder) (hstep : Step b x b')
    (hx : ∀ e wall, x ≠ .attended e wall) (harmed : b'.Armed) : b.Flows b' := by
  have hrun : Run b [x] b' := .single hstep
  exact ⟨⟨[x], hrun, fun e wall hmem => hx e wall (List.mem_singleton.mp hmem).symm⟩,
    hrun.steady hb.toSteady, harmed⟩

/-- Tasks that are left alone wait for their timers as before. -/
theorem Armed.of_tasks (hb : b.Armed) (htasks : b'.tasks = b.tasks) : b'.Armed := by
  intro id t ht
  refine hb id t ?_
  rwa [task?, htasks] at ht

/-- An errand leads on; the controller comes to answer differently only when all is done. -/
theorem attend_leads (hb : b.InOrder) (e : Errand) (hquiet : ∀ s, e = .script s → b.Quiet) :
    b.Leads (b.attend e) := by
  have hrun : OrderlyRun b [.attended e b.wall] (b.attend e) := by
    refine .single (.attend b e) ?_
    rintro s wall ⟨⟩
    exact hquiet s rfl
  exact ⟨⟨_, hrun⟩, hrun.run.steady hb.toSteady, hb.armed.of_tasks (b.attend_frame e).1⟩

theorem wake_flows (hb : b.InOrder) (id : ViewId) : b.Flows (b.wake id) := by
  obtain ⟨hacts, hwoken⟩ := wake_acts hb.toSteady id
  have hsteady := hacts.steady hb.toSteady
  obtain ⟨_, hothers⟩ := hacts.frame
  obtain ⟨trace, hrun, hown⟩ := hacts
  refine ⟨⟨trace, hrun, fun e wall hmem => ?_⟩, hsteady, fun j t ht hawake => ?_⟩
  · have hnone := hown _ hmem
    cases hnone
  · by_cases hj : j = id
    · subst hj
      exact (hwoken t ht).2
    · exact hb.armed j t (hothers j hj ▸ ht) hawake

/-- All tasks run by themselves. -/
theorem settle_flows (hb : b.InOrder) : b.Flows b.settle := by
  unfold settle
  generalize b.ready = ids
  induction ids generalizing b with
  | nil => exact .refl hb
  | cons id ids ih =>
    have hwake := wake_flows hb id
    exact hwake.trans (ih hwake.2)

/-! ## Section 2 — time -/

/-- No task that sleeps until an instant wakes before it. -/
theorem le_nextWake? {n instant : Nat} (h : b.SleepsUntil n)
    (hnext : b.nextWake? = some instant) : n ≤ instant := by
  obtain ⟨t, ht, hwake⟩ := List.mem_filterMap.mp (List.min?_mem hnext)
  rw [ViewTask.nextWake?, if_neg (by simp [(h t ht).1])] at hwake
  obtain ⟨e, he, rfl⟩ := List.mem_map.mp (List.min?_mem hwake)
  exact (h t ht).le_of_mem_timers he

/-- All tasks sleep until the next instant at which one wakes, if that is still to come. -/
theorem sleepsUntil_nextWake? (hb : b.InOrder) {instant : Nat}
    (hnext : b.nextWake? = some instant) (hlater : b.now < instant) :
    b.SleepsUntil instant := by
  obtain ⟨_, hfirst⟩ := List.min?_eq_some_iff.mp hnext
  intro t ht
  have hwake : ∀ n, t.nextWake? = some n → instant ≤ n :=
    fun n hn => hfirst n (List.mem_filterMap.mpr ⟨t, ht, hn⟩)
  cases hcancelled : t.cancelled with
  | true =>
    have hzero := hwake 0 (by rw [ViewTask.nextWake?, if_pos hcancelled])
    exact absurd (Nat.lt_of_lt_of_le hlater hzero) (Nat.not_lt_zero _)
  | false =>
    have harmed := hb.armed t.id t (hb.tidy.task?_of_mem ht) hcancelled
    refine harmed.sleepsUntil hcancelled fun e he => ?_
    rw [ViewTask.nextWake?, if_neg (by simp [hcancelled])] at hwake
    cases hmin : (t.timers.map (·.1)).min? with
    | none =>
      exact absurd (List.map_eq_nil_iff.mp (List.min?_eq_none_iff.mp hmin)) harmed.timers_ne_nil
    | some n =>
      exact Nat.le_trans (hwake n hmin)
        ((List.min?_eq_some_iff.mp hmin).2 e.1 (List.mem_map_of_mem he))

/-- All tasks sleep for good if none ever wakes, since there are none. -/
theorem sleepsUntil_of_nextWake?_eq_none (hb : b.InOrder)
    (hnext : b.nextWake? = none) (n : Nat) : b.SleepsUntil n := by
  intro t ht
  have hnone := List.filterMap_eq_nil_iff.mp (List.min?_eq_none_iff.mp hnext) t ht
  unfold ViewTask.nextWake? at hnone
  cases hcancelled : t.cancelled with
  | true =>
    rw [if_pos hcancelled] at hnone
    cases hnone
  | false =>
    rw [if_neg (by simp [hcancelled]), List.min?_eq_none_iff, List.map_eq_nil_iff] at hnone
    exact absurd hnone (hb.armed t.id t (hb.tidy.task?_of_mem ht) hcancelled).timers_ne_nil

/-- Time that passes while all tasks sleep passes by itself. -/
theorem pass_flows (hb : b.InOrder) {n : Nat} (hn : b.now < n) (hsleeps : b.SleepsUntil n) :
    b.Flows { b with now := n } :=
  .of_step hb (.pass hn hsleeps) (by simp) (hb.armed.of_tasks rfl)

/-- The next instant at which a task wakes comes by itself, and all is done then. -/
theorem settle_nextWake? (hb : b.InOrder) {instant : Nat} (hnext : b.nextWake? = some instant) :
    b.Flows { b with now := max b.now instant }.settle ∧
      { b with now := max b.now instant }.settle.now = max b.now instant ∧
      { b with now := max b.now instant }.settle.Quiet := by
  have hreach : b.Flows { b with now := max b.now instant } := by
    rcases Nat.lt_or_ge b.now instant with hlater | hnow
    · rw [Nat.max_eq_right (Nat.le_of_lt hlater)]
      exact pass_flows hb hlater (sleepsUntil_nextWake? hb hnext hlater)
    · rw [Nat.max_eq_left hnow]
      exact .refl hb
  obtain ⟨_, _, hnow, hquiet, _⟩ := settle_run hreach.2
  exact ⟨hreach.trans (settle_flows hreach.2), hnow, hquiet⟩

/-- Tasks run by themselves at all instants before one, and then all sleep until that instant.
A round is enough for each instant in between, and one more for the present if all is not done
yet. -/
theorem runUntil_flows {target fuel : Nat} (hb : b.InOrder) (hle : b.now ≤ target)
    (hfuel : (b.Quiet ∧ target ≤ b.now + fuel + 1) ∨ target ≤ b.now + fuel) :
    b.Flows (runUntil target fuel b) ∧ (runUntil target fuel b).now ≤ target ∧
      ((runUntil target fuel b).now < target →
        (runUntil target fuel b).SleepsUntil target) := by
  induction fuel generalizing b with
  | zero =>
    refine ⟨.refl hb, hle, fun hlt => ?_⟩
    rcases hfuel with ⟨hquiet, hnext⟩ | hno
    · exact hquiet.mono hnext
    · exact absurd hlt (Nat.not_lt_of_le hno)
  | succ fuel ih =>
    unfold runUntil
    cases hnext : b.nextWake? with
    | none => exact ⟨.refl hb, hle, fun _ => sleepsUntil_of_nextWake?_eq_none hb hnext target⟩
    | some instant =>
      by_cases hearly : instant < target
      · simp only [if_pos hearly]
        obtain ⟨hflows, hnow, hquiet⟩ := settle_nextWake? hb hnext
        have hle' : { b with now := max b.now instant }.settle.now ≤ target := by
          rw [hnow]
          exact Nat.max_le.mpr ⟨hle, Nat.le_of_lt hearly⟩
        have henough : target ≤ { b with now := max b.now instant }.settle.now + fuel + 1 := by
          rw [hnow]
          rcases hfuel with ⟨hquiet₀, hnext₀⟩ | hnext₀
          · have hlater : b.now + 1 ≤ instant := le_nextWake? hquiet₀ hnext
            omega
          · omega
        obtain ⟨hflows', hdone⟩ := ih hflows.2 hle' (.inl ⟨hquiet, henough⟩)
        exact ⟨hflows.trans hflows', hdone⟩
      · simp only [if_neg hearly]
        refine ⟨.refl hb, hle, fun hlt => ?_⟩
        have hlater : b.now < instant := Nat.lt_of_lt_of_le hlt (Nat.le_of_not_lt hearly)
        exact (sleepsUntil_nextWake? hb hnext hlater).mono (Nat.le_of_not_lt hearly)

/-- An instant comes by itself. -/
theorem reach_flows {target : Nat} (hb : b.InOrder) (hle : b.now ≤ target) :
    b.Flows (b.reach target) := by
  have hfuel : target ≤ b.now + (target - b.now + 1) := by omega
  obtain ⟨hflows, hbefore, hsleeps⟩ := runUntil_flows hb hle (.inr hfuel)
  unfold reach
  generalize runUntil target (target - b.now + 1) b = s at hflows hbefore hsleeps
  rcases Nat.lt_or_ge s.now target with hlt | hge
  · exact hflows.trans (pass_flows hflows.2 hlt (hsleeps hlt))
  · obtain rfl := Nat.le_antisymm hbefore hge
    exact hflows

theorem advance_flows (hb : b.InOrder) (ms : Nat) : b.Flows (b.advance ms) := by
  have hreach := reach_flows hb (Nat.le_add_right b.now ms)
  exact hreach.trans (settle_flows hreach.2)

theorem await_flows (hb : b.InOrder) (condition : Board → Bool) (looks : Nat) :
    b.Flows (b.await condition looks).2 := by
  induction looks generalizing b with
  | zero => exact .refl hb
  | succ looks ih =>
    unfold await
    split
    · exact .refl hb
    · have hadvance := advance_flows hb 10
      exact hadvance.trans (ih hadvance.2)

/-! ## Section 3 — views -/

/-- The task of a view that was just mounted has set its poll, and all other tasks
are as they were. -/
theorem Armed.of_mount (hb : b.Armed) (kind : ViewKind)
    (htasks : b'.tasks = (b.mount kind).2.tasks) : b'.Armed := by
  intro id t ht hawake
  have hmount : (b.mount kind).2.task? id = some t := by
    rwa [task?, ← htasks]
  rw [task?_mount] at hmount
  cases hold : b.task? id with
  | some u =>
    rw [hold, Option.some_or] at hmount
    cases hmount
    exact hb id t hold hawake
  | none =>
    rw [hold, Option.none_or] at hmount
    split at hmount
    · cases hmount
      exact ⟨fun _ => rfl, by simp, .inr ⟨rfl, Nat.le_add_right _ _⟩⟩
    · cases hmount

/-- A task that was given up waits for nothing, and all other tasks are as they were. -/
theorem Armed.of_cancel (hb : b.Armed) (id : ViewId) (htasks : b'.tasks = (b.cancel id).tasks) :
    b'.Armed := by
  intro j t ht hawake
  have hcancel : (b.cancel id).task? j = some t := by
    rwa [task?, ← htasks]
  rw [task?_cancel] at hcancel
  by_cases hj : j = id
  · rw [if_pos hj] at hcancel
    obtain ⟨u, _, rfl⟩ := Option.map_eq_some_iff.mp hcancel
    cases hawake
  · rw [if_neg hj] at hcancel
    exact hb j t hcancel hawake

theorem hold_flows (hb : b.InOrder) (kind : ViewKind) : b.Flows (b.hold kind).2 :=
  .of_step hb (.hold b kind) (by simp) (hb.armed.of_mount kind rfl)

theorem release_flows (hb : b.InOrder) (id : ViewId) : b.Flows (b.release id).2 := by
  by_cases hid : id ∈ b.held
  · refine .of_step hb (.release hid) (by simp) (hb.armed.of_cancel id ?_)
    rw [release_of_mem hid]
  · rw [release_of_not_mem hid]
    exact .refl hb

theorem ensureMounted_flows (hb : b.InOrder) (kind : ViewKind) :
    b.Flows (b.ensureMounted kind).2 := by
  cases hkind : b.mounted.lookup kind with
  | none =>
    refine .of_step hb (.ensure hkind) (by simp) (hb.armed.of_mount kind ?_)
    rw [ensureMounted_of_none hkind]
  | some id =>
    rw [ensureMounted_of_some hkind]
    exact .refl hb

theorem unmountKind_flows (hb : b.InOrder) (kind : ViewKind) :
    b.Flows (b.unmountKind kind).2 := by
  unfold unmountKind
  cases hkind : b.mounted.lookup kind with
  | none => exact .refl hb
  | some id =>
    have habandon : b.Flows (b.abandon kind id) :=
      .of_step hb (.abandon hkind) (by simp) (hb.armed.of_cancel id rfl)
    exact habandon.trans (wake_flows habandon.2 id)

/-! ## Section 4 — commands and requests -/

/-- A command is sent, and when its delay is over, if there is one, its answer is taken down. -/
theorem sendCommand_cases (b : Board) (did : DeviceRef) (command : Command) :
    ∃ b₁, (b₁ = b.attend (.call (.command did command)) ∨
        ∃ ms, b₁ = (b.attend (.call (.command did command))).reach (b.now + ms)) ∧
      b.sendCommand did command =
        (b₁.script.outcome (.command did command),
          b₁.attend (.reply (.command did command))) := by
  simp only [sendCommand]
  cases b.script.delayOf (.command did command) with
  | none => exact ⟨_, .inl rfl, rfl⟩
  | some ms => exact ⟨_, .inr ⟨ms, rfl⟩, rfl⟩

/-- After a command was answered, at most its failure is reported. -/
theorem command_cases (b : Board) (did : DeviceRef) (command : Command) :
    (b.command did command).2 = (b.sendCommand did command).2 ∨
      ∃ e, (b.command did command).2 = (b.sendCommand did command).2.attend (.report e) := by
  unfold Board.command
  cases b.sendCommand did command with
  | mk outcome b₁ =>
    cases outcome with
    | ok state => exact .inl rfl
    | error e =>
      refine .inr ⟨e, ?_⟩
      simp only [attend]
      cases b₁.report e with
      | mk reported b₂ => cases reported <;> rfl

/-- What a request leaves of a board.  A view is unmounted only if the request asks for it,
under one of its names. -/
inductive Responded (b : Board) (r : Request) : Board → Prop where
  | unchanged : Responded b r b
  | shown (kind : ViewKind) : Responded b r (b.ensureMounted kind).2
  | unmounted {text : String} {kind : ViewKind} (h : r.AsksFor "DELETE" text)
      (hkind : ViewKind.ofRoute? text = some kind) : Responded b r (b.unmountKind kind).2
  | commanded (did : DeviceRef) (command : Command) : Responded b r (b.command did command).2
  | purged : Responded b r (b.attend .purge)
  | dismissed (id : Uuid) : Responded b r (b.attend (.dismiss id))
  | debugged (on : Bool) : Responded b r (b.attend (.debug on))

theorem dropView_snd (b : Board) (kind : ViewKind) :
    (b.dropView kind).2 = (b.unmountKind kind).2 := by
  unfold dropView
  cases b.unmountKind kind with
  | mk mounted b' => cases mounted <;> rfl

/-- Each resource is served in one of these ways. -/
theorem responded_serve (b : Board) {r : Request} {method : String} {resource : Resource}
    (hmethod : method = "DELETE" → r.method = "DELETE")
    (hresource : Resource.ofPath? r.path = some resource) :
    b.Responded r (b.serve r method resource).2 := by
  cases resource with
  | health => exact .unchanged
  | systemHealth => exact .unchanged
  | views => exact .unchanged
  | view route =>
    obtain ⟨_, hpath⟩ := Resource.ofPath?_eq_view_iff.mp hresource
    simp only [serve, viewOf]
    cases hdecode : Percent.decodeText? route with
    | none => exact .unchanged
    | some text =>
      simp only
      cases hkind : ViewKind.ofRoute? text with
      | none => exact .unchanged
      | some kind =>
        simp only [orAnswer]
        split
        · rename_i hdelete
          rw [dropView_snd]
          exact .unmounted ⟨hmethod hdelete, route, hpath, hdecode⟩ hkind
        · exact .shown kind
  | command device =>
    simp only [serve, deviceOf]
    split
    · exact .unchanged
    · simp only [orAnswer]
      split
      · exact .commanded _ _
      · exact .unchanged
  | notifications => exact .purged
  | notification text =>
    simp only [serve, dismiss]
    split
    · exact .unchanged
    · rename_i id _
      have hdismissed := Responded.dismissed (b := b) (r := r) id
      split
      · rename_i heq
        rwa [attend, heq] at hdismissed
      · rename_i heq
        rwa [attend, heq] at hdismissed
  | debug =>
    simp only [serve]
    split
    · split
      · exact .debugged _
      · exact .unchanged
    · exact .unchanged

/-- Every request leaves one of these boards, whether it is admitted or not. -/
theorem responded (b : Board) (r : Request) : b.Responded r (b.respond r).2 := by
  unfold respond
  split
  · exact .unchanged
  · split
    · exact .unchanged
    · rename_i resource hresource
      split
      · exact b.responded_serve id hresource
      · split
        · exact b.responded_serve (by simp) hresource
        · exact .unchanged

theorem sendCommand_leads (hb : b.InOrder) (did : DeviceRef) (command : Command) :
    b.Leads (b.sendCommand did command).2 := by
  have hcall := attend_leads hb (.call (.command did command)) (by simp)
  obtain ⟨b₁, hwait, hsend⟩ := b.sendCommand_cases did command
  have hleads : b.Leads b₁ := by
    rcases hwait with rfl | ⟨ms, rfl⟩
    · exact hcall
    · exact hcall.trans (reach_flows hcall.2 (Nat.le_add_right _ ms)).leads
  rw [hsend]
  exact hleads.trans (attend_leads hleads.2 (.reply (.command did command)) (by simp))

theorem command_leads (hb : b.InOrder) (did : DeviceRef) (command : Command) :
    b.Leads (b.command did command).2 := by
  have hsend := sendCommand_leads hb did command
  rcases b.command_cases did command with heq | ⟨e, heq⟩
  · rw [heq]
    exact hsend
  · rw [heq]
    exact hsend.trans (attend_leads hsend.2 (.report e) (by simp))

/-- Answering a request leads on. -/
theorem respond_leads (hb : b.InOrder) (r : Request) : b.Leads (b.respond r).2 := by
  have hresponded := b.responded r
  generalize (b.respond r).2 = b' at hresponded ⊢
  cases hresponded with
  | unchanged => exact .refl hb
  | shown kind => exact (ensureMounted_flows hb kind).leads
  | unmounted => exact (unmountKind_flows hb _).leads
  | commanded did command => exact command_leads hb did command
  | purged => exact attend_leads hb .purge (by simp)
  | dismissed id => exact attend_leads hb (.dismiss id) (by simp)
  | debugged on => exact attend_leads hb (.debug on) (by simp)

/-! ## Section 5 — sessions -/

end Board

/-- What can be asked of a dashboard from outside. -/
inductive Operation where
  | request (r : Request)
  /-- Mounts a view that is held until it is released. -/
  | hold (kind : ViewKind)
  | release (id : ViewId)
  | command (did : DeviceRef) (command : Command)
  /-- Lets some milliseconds pass. -/
  | advance (ms : Nat)
  /-- Lets time pass until a condition holds, and looks some times at most. -/
  | await (condition : Board → Bool) (looks : Nat)
  | attend (e : Errand)

namespace Board

variable {b : Board}

/-- A board after it was asked for something, before its tasks have run. -/
def asked (b : Board) : Operation → Board
  | .request r => (b.respond r).2
  | .hold kind => (b.hold kind).2
  | .release id => (b.release id).2
  | .command did command => (b.sendCommand did command).2
  | .advance ms => b.advance ms
  | .await condition looks => (b.await condition looks).2
  | .attend e => b.attend e

/-- A board after it was asked for something and all tasks have run. -/
def operate (b : Board) (op : Operation) : Board := (b.asked op).settle

theorem asked_leads (hb : b.InOrder) (hquiet : b.Quiet) (op : Operation) :
    b.Leads (b.asked op) := by
  cases op with
  | request r => exact respond_leads hb r
  | hold kind => exact (hold_flows hb kind).leads
  | release id => exact (release_flows hb id).leads
  | command did command => exact sendCommand_leads hb did command
  | advance ms => exact (advance_flows hb ms).leads
  | await condition looks => exact (await_flows hb condition looks).leads
  | attend e => exact attend_leads hb e fun _ _ => hquiet

/-- Whatever is asked of a dashboard, what it does is a run, and then all is done at
the instant. -/
theorem operate_leads (hb : b.InOrder) (hquiet : b.Quiet) (op : Operation) :
    b.Leads (b.operate op) ∧ (b.operate op).Quiet := by
  have hasked := asked_leads hb hquiet op
  obtain ⟨_, _, _, hquiet', _⟩ := settle_run hasked.2
  exact ⟨hasked.trans (settle_flows hasked.2).leads, hquiet'⟩

/-- Whatever is asked one after the other leads on, and then all is done at the instant. -/
theorem foldl_operate_leads (hb : b.InOrder) (hquiet : b.Quiet) (ops : List Operation) :
    b.Leads (ops.foldl operate b) ∧ (ops.foldl operate b).Quiet := by
  induction ops generalizing b with
  | nil => exact ⟨.refl hb, hquiet⟩
  | cons op ops ih =>
    obtain ⟨hleads, hquiet'⟩ := operate_leads hb hquiet op
    obtain ⟨hrest, hdone⟩ := ih hleads.2 hquiet'
    exact ⟨hleads.trans hrest, hdone⟩

/-- A session of a dashboard is an orderly run from its start, and all is done at the end. -/
theorem session_run (s : Settings) (intervals : Intervals) (wall : Int) (firstToast : Uuid)
    (ops : List Operation) :
    ∃ h, OrderlyRun (start s intervals wall firstToast) h
      (ops.foldl operate (start s intervals wall firstToast)) ∧
      (ops.foldl operate (start s intervals wall firstToast)).Quiet := by
  have hquiet : (start s intervals wall firstToast).Quiet := fun t ht => nomatch ht
  obtain ⟨⟨⟨h, hrun⟩, _⟩, hdone⟩ :=
    foldl_operate_leads (inOrder_start s intervals wall firstToast) hquiet ops
  exact ⟨h, hrun, hdone⟩

end Board

end HouseBoard
