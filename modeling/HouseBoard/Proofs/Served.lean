/-
HouseBoard.Proofs.Served — commands as the dashboard handles them.

A run may hold any errand at any time.  The dashboard is more orderly with commands: it answers
one after it was sent, and once, and when the answer is a failure it reports this failure in the
same breath.  Section 1 tells of such runs.  Section 2 says that there are no commands without
errands, and Section 3 that whatever callers ask of the dashboard is such a run, however long
its commands take.
-/
import HouseBoard.Proofs.Session

namespace HouseBoard

/-! ## Section 1 — served runs -/

/-- The failure with which a call was answered. -/
def Outcome.failure? {c : Call} : Outcome c → Option RpcError
  | .ok _ => none
  | .error e => some e

/-- What is done when the answer to a command arrives: it is taken down, and a
failure is reported. -/
def Script.errands (s : Script) (c : Call) : List Errand :=
  .reply c :: ((s.outcome c).failure?.map Errand.report).toList

/-- Whether a happening belongs to a command. -/
def Happening.isOfCommand : Happening → Bool
  | .attended (.call _) _ => true
  | .attended (.reply _) _ => true
  | .attended (.report _) _ => true
  | _ => false

/-- A run in which commands are answered after they were sent, and in which the failures of
commands are reported, and nothing else.  The list holds the commands that are still to be
answered. -/
inductive ServedRun (b : Board) : List Happening → List Call → Board → Prop where
  | refl : ServedRun b [] [] b
  | step {b' b'' : Board} {h : List Happening} {cs : List Call} {x : Happening}
      (hrun : ServedRun b h cs b') (hstep : Step b' x b'') (hx : x.isOfCommand = false) :
      ServedRun b (h ++ [x]) cs b''
  | call {b' : Board} {h : List Happening} {cs : List Call} (did : DeviceRef)
      (command : Command) (hrun : ServedRun b h cs b') :
      ServedRun b (h ++ [.attended (.call (.command did command)) b'.wall])
        (.command did command :: cs) (b'.attend (.call (.command did command)))
  | reply {b' : Board} {h : List Happening} {cs : List Call} {c : Call}
      (hrun : ServedRun b h cs b') (hc : c ∈ cs) :
      ServedRun b (h ++ (b'.script.errands c).map fun e => .attended e b'.wall) (cs.erase c)
        ((b'.script.errands c).foldl Board.attend b')

/-- Taking an answer down, and reporting a failure with it, is a run. -/
theorem Board.run_errands (b : Board) (c : Call) :
    Run b ((b.script.errands c).map fun e => .attended e b.wall)
      ((b.script.errands c).foldl attend b) := by
  have hreply : Step b (.attended (.reply c) b.wall) (b.attend (.reply c)) :=
    .attend b (.reply c)
  unfold Script.errands
  cases (b.script.outcome c).failure? with
  | none => exact .single hreply
  | some e => exact .cons hreply (.single (.attend (b.attend (.reply c)) (.report e)))

namespace ServedRun

variable {b b' b'' : Board} {h h' : List Happening} {cs : List Call}

theorem run (hrun : ServedRun b h cs b') : Run b h b' := by
  induction hrun with
  | refl => exact .refl b
  | step _ hstep _ ih => exact .step ih hstep
  | call did command _ ih => exact .step ih (.attend _ _)
  | @reply b₁ _ _ c _ _ ih => exact ih.append (b₁.run_errands c)

theorem append (hrun : ServedRun b h [] b') (hrun' : ServedRun b' h' cs b'') :
    ServedRun b (h ++ h') cs b'' := by
  induction hrun' with
  | refl => rwa [List.append_nil]
  | step _ hstep hx ih =>
    rw [← List.append_assoc]
    exact .step ih hstep hx
  | call did command _ ih =>
    rw [← List.append_assoc]
    exact .call did command ih
  | reply _ hc ih =>
    rw [← List.append_assoc]
    exact .reply ih hc

/-- A run that has nothing to do with commands can be put after a served one. -/
theorem append_run (hrun : ServedRun b h cs b') (hrun' : Run b' h' b'')
    (hno : ∀ x ∈ h', x.isOfCommand = false) : ServedRun b (h ++ h') cs b'' := by
  induction hrun' with
  | refl => rwa [List.append_nil]
  | step _ hstep ih =>
    rw [← List.append_assoc]
    exact .step (ih fun x hx => hno x (List.mem_append_left _ hx)) hstep (hno _ (by simp))

end ServedRun

/-! ## Section 2 — runs without commands -/

namespace Board

variable {b b' b'' : Board}

/-- A board comes from another one without commands. -/
def Minds (b b' : Board) : Prop := ∃ h, Run b h b' ∧ ∀ x ∈ h, x.isOfCommand = false

theorem Minds.refl (b : Board) : b.Minds b := ⟨[], .refl b, by simp⟩

theorem Minds.of_step {x : Happening} (hstep : Step b x b') (hx : x.isOfCommand = false) :
    b.Minds b' :=
  ⟨[x], .single hstep, by simpa using hx⟩

/-- Without errands there are no commands. -/
theorem Flows.minds (h : b.Flows b') : b.Minds b' := by
  obtain ⟨⟨trace, hrun, hno⟩, _⟩ := h
  refine ⟨trace, hrun, fun x hx => ?_⟩
  cases x with
  | attended e wall => exact absurd hx (hno e wall)
  | _ => rfl

/-! ## Section 3 — what callers ask for -/

/-- A board comes from another one by a served run that leaves no command without an answer. -/
def Serves (b b' : Board) : Prop := ∃ h, ServedRun b h [] b'

theorem Serves.trans (h : b.Serves b') (h' : b'.Serves b'') : b.Serves b'' := by
  obtain ⟨trace, hrun⟩ := h
  obtain ⟨trace', hrun'⟩ := h'
  exact ⟨trace ++ trace', hrun.append hrun'⟩

theorem Minds.serves (h : b.Minds b') : b.Serves b' := by
  obtain ⟨trace, hrun, hno⟩ := h
  exact ⟨[] ++ trace, ServedRun.refl.append_run hrun hno⟩

/-- A command that callers send through the dashboard is answered once, and its
failure is reported. -/
theorem command_serves (hb : b.InOrder) (did : DeviceRef) (command : Command) :
    b.Serves (b.command did command).2 := by
  let c : Call := .command did command
  have hcall := attend_leads hb (.call c) (by simp)
  -- the board on which the answer arrives
  obtain ⟨b₁, hwait, hsend⟩ := b.sendCommand_cases did command
  have hminds : (b.attend (.call c)).Minds b₁ := by
    rcases hwait with rfl | ⟨ms, rfl⟩
    · exact .refl _
    · exact (reach_flows hcall.2 (Nat.le_add_right _ ms)).minds
  obtain ⟨trace, hrun, hno⟩ := hminds
  have hsent : ServedRun b ([] ++ [.attended (.call c) b.wall] ++ trace) [c] b₁ :=
    (ServedRun.call did command .refl).append_run hrun hno
  have hanswered := hsent.reply (List.mem_singleton_self c)
  rw [List.erase_cons_head] at hanswered
  have hdone : (b.command did command).2 = (b₁.script.errands c).foldl attend b₁ := by
    unfold Board.command Script.errands
    rw [hsend]
    cases b₁.script.outcome c with
    | ok state => rfl
    | error e =>
      have hreport : (b₁.attend (.reply c)).attend (.report e) =
        ((b₁.attend (.reply c)).report e).2 := rfl
      simp only [Outcome.failure?, Option.map_some, Option.toList_some, List.foldl_cons,
        List.foldl_nil, hreport]
      cases (b₁.attend (.reply c)).report e with
      | mk reported b₂ => cases reported <;> rfl
  rw [hdone]
  exact ⟨_, hanswered⟩

/-- Answering a request is a served run. -/
theorem respond_serves (hb : b.InOrder) (r : Request) : b.Serves (b.respond r).2 := by
  have hresponded := b.responded r
  generalize (b.respond r).2 = b' at hresponded ⊢
  cases hresponded with
  | unchanged => exact (Minds.refl b).serves
  | shown kind => exact (ensureMounted_flows hb kind).minds.serves
  | unmounted => exact (unmountKind_flows hb _).minds.serves
  | commanded did command => exact command_serves hb did command
  | purged => exact (Minds.of_step (.attend b .purge) rfl).serves
  | dismissed id => exact (Minds.of_step (.attend b (.dismiss id)) rfl).serves
  | debugged on => exact (Minds.of_step (.attend b (.debug on)) rfl).serves

end Board

/-- Whether something that is asked for goes through the dashboard: commands that are sent past
it do not, nor do errands about such commands. -/
def Operation.isServed : Operation → Bool
  | .command _ _ => false
  | .attend e => !(Happening.attended e 0).isOfCommand
  | _ => true

namespace Board

/-- What is asked of a dashboard is a served run, if commands go through the dashboard. -/
theorem operate_serves {b : Board} (hb : b.InOrder) (hquiet : b.Quiet) {op : Operation}
    (hop : op.isServed = true) : b.Serves (b.operate op) := by
  have hasked : b.Serves (b.asked op) := by
    cases op with
    | request r => exact respond_serves hb r
    | hold kind => exact (hold_flows hb kind).minds.serves
    | release id => exact (release_flows hb id).minds.serves
    | command did command => cases hop
    | advance ms => exact (advance_flows hb ms).minds.serves
    | await condition looks => exact (await_flows hb condition looks).minds.serves
    | attend e =>
      have he : (Happening.attended e b.wall).isOfCommand = false := by
        cases e with
        | call c => cases hop
        | reply c => cases hop
        | report e => cases hop
        | _ => rfl
      exact (Minds.of_step (.attend b e) he).serves
  have hleads := asked_leads hb hquiet op
  exact hasked.trans (settle_flows hleads.2).minds.serves

/-- A session is a served run if all of its commands go through the dashboard. -/
theorem session_serves (s : Settings) (intervals : Intervals) (wall : Int) (firstToast : Uuid)
    {ops : List Operation} (hops : ∀ op ∈ ops, op.isServed = true) :
    (start s intervals wall firstToast).Serves
      (ops.foldl operate (start s intervals wall firstToast)) := by
  have hfold {b : Board} (hb : b.InOrder) (hquiet : b.Quiet) :
      b.Serves (ops.foldl operate b) := by
    induction ops generalizing b with
    | nil => exact (Minds.refl b).serves
    | cons op ops ih =>
      obtain ⟨hop, hrest⟩ := List.forall_mem_cons.mp hops
      obtain ⟨hleads, hquiet'⟩ := operate_leads hb hquiet op
      exact (operate_serves hb hquiet hop).trans (ih hrest hleads.2 hquiet')
  exact hfold (inOrder_start s intervals wall firstToast) fun t ht => nomatch ht

end Board

end HouseBoard
