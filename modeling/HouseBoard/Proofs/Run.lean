/-
HouseBoard.Proofs.Run — runs of the dashboard, one thing at a time.

A step is the smallest thing that can happen: something is asked for or changed from outside, a
view is mounted or given up, a task makes one move, or time goes on while all tasks sleep.
Tasks take turns in any order; only the moves of one task are ordered, answers before polls and
polls before ticks.  Every step leaves a happening behind, and a run is told by its happenings.

Section 1 says what happens and Section 2 when; Section 3 tells runs in which the controller
does not change its answers in the midst of an instant.  What steps do to a view is told in
`HouseBoard.Proofs.Step`.
-/
import HouseBoard.Proofs.Ledger

namespace HouseBoard

/-! ## Section 1 — happenings -/

/-- What tasks can see of the world at an instant. -/
structure Moment where
  now : Nat
  wall : Int
  script : Script

/-- What is done to a dashboard beside its views. -/
inductive Errand where
  /-- The controller answers differently from now on. -/
  | script (s : Script)
  /-- The log of calls is started anew. -/
  | forget
  /-- A command is sent. -/
  | call (c : Call)
  /-- A command was answered. -/
  | reply (c : Call)
  /-- The failure of a command is reported. -/
  | report (e : RpcError)
  /-- Messages that have expired are let go. -/
  | purge
  /-- A message is dismissed. -/
  | dismiss (id : Uuid)
  | debug (on : Bool)
  /-- The wall clock shows another time. -/
  | clock (wall : Int)

/-- One thing that happens to a dashboard. -/
inductive Happening where
  | mounted (id : ViewId) (kind : ViewKind) (now : Nat)
  /-- The view was given up. -/
  | dropped (id : ViewId)
  /-- The task of a view that was given up has ended. -/
  | left (id : ViewId)
  /-- The task of a view made a move; a fetch that was on its way may have ended. -/
  | moved (id : ViewId) (m : Move) (moment : Moment) (effects : List Effect) (ended : Bool)
  /-- The task of a view could not go on. -/
  | fell (id : ViewId) (moment : Moment)
  | attended (errand : Errand) (wall : Int)
  | passed (target : Nat)

/-- The view that a happening concerns. -/
def Happening.id? : Happening → Option ViewId
  | .mounted id _ _ => some id
  | .dropped id => some id
  | .left id => some id
  | .moved id _ _ _ _ => some id
  | .fell id _ => some id
  | .attended _ _ => none
  | .passed _ => none

/-- Whether a happening concerns a view. -/
def Happening.isOf (id : ViewId) (x : Happening) : Bool := x.id? == some id

/-! ## Section 2 — steps -/

namespace ViewTask

/-- Whether a task may make a move: a poll starts when no fetch is on its way, and the
tick comes last. -/
def Allows (t : ViewTask) (now : Nat) : Move → Prop
  | .answers => True
  | .poll => t.pollsAt now = true
  | .tick => t.AwaitsUntil (now + 1)
  | .rest => True

instance (t : ViewTask) (now : Nat) (m : Move) : Decidable (t.Allows now m) :=
  match m with
  | .answers => .isTrue trivial
  | .poll => inferInstanceAs (Decidable (_ = true))
  | .tick => inferInstanceAs (Decidable (t.AwaitsUntil (now + 1)))
  | .rest => .isTrue trivial

/-- A task has nothing to do before an instant. -/
def SleepsUntil (t : ViewTask) (n : Nat) : Prop :=
  t.cancelled = false ∧ t.AwaitsUntil n ∧ n ≤ t.tick.due

instance (t : ViewTask) (n : Nat) : Decidable (t.SleepsUntil n) :=
  inferInstanceAs (Decidable (_ ∧ _))

/-- What sleeps until an instant sleeps until every earlier one. -/
theorem SleepsUntil.mono {t : ViewTask} {m n : Nat} (h : t.SleepsUntil n) (hle : m ≤ n) :
    t.SleepsUntil m :=
  ⟨h.1, h.2.1.mono hle, Nat.le_trans hle h.2.2⟩

end ViewTask

namespace Board

/-- The moment at which a board stands. -/
def moment (b : Board) : Moment := ⟨b.now, b.wall, b.script⟩

/-- No task has anything to do before an instant. -/
def SleepsUntil (b : Board) (n : Nat) : Prop := ∀ t ∈ b.tasks, t.SleepsUntil n

instance (b : Board) (n : Nat) : Decidable (b.SleepsUntil n) :=
  inferInstanceAs (Decidable (∀ t ∈ b.tasks, t.SleepsUntil n))

/-- All that can be done at an instant is done. -/
def Quiet (b : Board) : Prop := b.SleepsUntil (b.now + 1)

instance (b : Board) : Decidable b.Quiet :=
  inferInstanceAs (Decidable (b.SleepsUntil (b.now + 1)))

/-- Does an errand. -/
def attend (b : Board) : Errand → Board
  | .script script => { b with script }
  | .forget => { b with log := {} }
  | .call c => { b with log := b.log.start c }
  | .reply c => { b with log := b.log.complete c }
  | .report e => (b.report e).2
  | .purge => { b with notifier := b.notifier.expire b.wall }
  | .dismiss id => { b with notifier := (b.notifier.dismiss id).2 }
  | .debug on => { b with debug := on }
  | .clock wall => { b with wall }

/-- A board on which timers have taken numbers. -/
def stamped (b : Board) (n : Nat) : Board := { b with nextStamp := n }

/-- The views that someone still holds. -/
def handles (b : Board) : List ViewId := b.held ++ b.mounted.map (·.2)

/-- Whether a task can go on after a move. -/
def performs (b : Board) (t : ViewTask) (m : Move) : Bool :=
  ((b.stamped (b.turn t m).2.nextStamp).performAll t.id (b.turn t m).2.effects).1

/-- Whether the task of a view may make a move and can go on after it. -/
def canMove (b : Board) (id : ViewId) (m : Move) : Bool :=
  (b.task? id).any fun t => !t.cancelled && decide (t.Allows b.now m) && b.performs t m

/-- What happens when the task of a view makes a move. -/
def moving (b : Board) (id : ViewId) (m : Move) : Happening :=
  .moved id m b.moment ((b.task? id).elim [] fun t => (b.turn t m).2.effects)
    ((b.task? id).any fun t => t.fetch.isSome && (b.turn t m).1.fetch.isNone)

/-- A board on which the task of a view was replaced. -/
def withTask (b : Board) (id : ViewId) (t : ViewTask) : Board :=
  { b with tasks := b.tasks.map fun u => if u.id = id then t else u }

/-- A board without the task of a view. -/
def withoutTask (b : Board) (id : ViewId) : Board :=
  { b with tasks := b.tasks.filter (·.id ≠ id) }

end Board

/-- What can happen next, and what the board is then. -/
inductive Step : Board → Happening → Board → Prop where
  | attend (b : Board) (e : Errand) : Step b (.attended e b.wall) (b.attend e)
  | hold (b : Board) (kind : ViewKind) : Step b (.mounted b.nextId kind b.now) (b.hold kind).2
  | ensure {b : Board} {kind : ViewKind} (hkind : b.mounted.lookup kind = none) :
      Step b (.mounted b.nextId kind b.now) (b.ensureMounted kind).2
  | release {b : Board} {id : ViewId} (hid : id ∈ b.held) :
      Step b (.dropped id) (b.release id).2
  | abandon {b : Board} {kind : ViewKind} {id : ViewId}
      (hkind : b.mounted.lookup kind = some id) :
      Step b (.dropped id) (b.abandon kind id)
  | leave {b : Board} {id : ViewId} {t : ViewTask} (ht : b.task? id = some t)
      (hcancelled : t.cancelled = true) :
      Step b (.left id) (b.finish id)
  | move {b : Board} {id : ViewId} {t : ViewTask} {m : Move} (ht : b.task? id = some t)
      (hcancelled : t.cancelled = false) (hm : t.Allows b.now m)
      (hperforms : b.performs t m = true) :
      Step b (.moved id m b.moment (b.turn t m).2.effects
        (t.fetch.isSome && (b.turn t m).1.fetch.isNone))
        (b.move id m)
  | fall {b : Board} {id : ViewId} {t : ViewTask} {m : Move} (ht : b.task? id = some t)
      (hcancelled : t.cancelled = false) (hm : t.Allows b.now m)
      (hperforms : b.performs t m = false) :
      Step b (.fell id b.moment) (b.move id m)
  | pass {b : Board} {n : Nat} (hn : b.now < n) (hsleeps : b.SleepsUntil n) :
      Step b (.passed n) { b with now := n }

/-- A task that may make a move and can go on after it makes a step. -/
theorem Step.of_canMove {b : Board} {id : ViewId} {m : Move} (h : b.canMove id m = true) :
    Step b (b.moving id m) (b.move id m) := by
  unfold Board.canMove at h
  unfold Board.moving
  cases ht : b.task? id with
  | none =>
    rw [ht] at h
    cases h
  | some t =>
    rw [ht] at h
    simp only [Option.any_some, Bool.and_eq_true, Bool.not_eq_true', decide_eq_true_eq] at h
    obtain ⟨⟨hcancelled, hm⟩, hperforms⟩ := h
    exact .move ht hcancelled hm hperforms

/-- A board comes from another one by the things that happen one after the other. -/
inductive Run : Board → List Happening → Board → Prop where
  | refl (b : Board) : Run b [] b
  | step {b b' b'' : Board} {h : List Happening} {x : Happening} (hrun : Run b h b')
      (hstep : Step b' x b'') :
      Run b (h ++ [x]) b''

namespace Run

theorem single {b b' : Board} {x : Happening} (h : Step b x b') : Run b [x] b' :=
  .step (.refl b) h

/-- Runs can be put together. -/
theorem append {b b' b'' : Board} {h h' : List Happening} (hrun : Run b h b')
    (hrun' : Run b' h' b'') : Run b (h ++ h') b'' := by
  induction hrun' with
  | refl => rwa [List.append_nil]
  | step _ hstep ih =>
    rw [← List.append_assoc]
    exact .step ih hstep

theorem cons {b b' b'' : Board} {x : Happening} {h : List Happening} (hstep : Step b x b')
    (hrun : Run b' h b'') :
    Run b (x :: h) b'' := (single hstep).append hrun

/-- A run can be taken apart at each happening. -/
theorem split {b b'' : Board} {h h' : List Happening} (hrun : Run b (h ++ h') b'') :
    ∃ b', Run b h b' ∧ Run b' h' b'' := by
  generalize htrace : h ++ h' = trace at hrun
  induction hrun generalizing h' with
  | refl =>
    obtain ⟨rfl, rfl⟩ := List.append_eq_nil_iff.mp htrace
    exact ⟨b, .refl b, .refl b⟩
  | @step b₁ b'' trace₁ x hrun hstep ih =>
    rcases List.eq_nil_or_concat h' with rfl | ⟨h'', y, rfl⟩
    · rw [List.append_nil] at htrace
      subst htrace
      exact ⟨b'', .step hrun hstep, .refl b''⟩
    · rw [List.concat_eq_append, ← List.append_assoc] at htrace
      obtain ⟨htrace₁, hx⟩ := List.append_inj' htrace rfl
      cases hx
      obtain ⟨b', hfirst, hrest⟩ := ih htrace₁
      refine ⟨b', hfirst, ?_⟩
      rw [List.concat_eq_append]
      exact .step hrest hstep

theorem eq_of_nil {b b' : Board} (hrun : Run b [] b') : b' = b := by
  generalize hnil : ([] : List Happening) = trace at hrun
  cases hrun with
  | refl => rfl
  | step _ _ => simp at hnil

theorem step_of_single {b b' : Board} {x : Happening} (hrun : Run b [x] b') : Step b x b' := by
  generalize hsingle : [x] = trace at hrun
  cases hrun with
  | refl => cases hsingle
  | @step b₁ _ h₁ y hrun₁ hstep =>
    rw [← List.nil_append [x]] at hsingle
    obtain ⟨hnil, hy⟩ := List.append_inj' hsingle rfl
    cases hy
    subst hnil
    rwa [eq_of_nil hrun₁] at hstep

/-- Each happening of a run is that of a step on the way. -/
theorem exists_step_of_mem {b b' : Board} {h : List Happening} {x : Happening}
    (hrun : Run b h b') (hx : x ∈ h) :
    ∃ h₁ h₂ b₁ b₂, h = h₁ ++ x :: h₂ ∧ Run b h₁ b₁ ∧ Step b₁ x b₂ ∧ Run b₂ h₂ b' := by
  obtain ⟨h₁, h₂, rfl⟩ := List.append_of_mem hx
  obtain ⟨b₁, hrun₁, hrest⟩ := hrun.split
  rw [← List.singleton_append] at hrest
  obtain ⟨b₂, hsingle, hrun₂⟩ := hrest.split
  exact ⟨h₁, h₂, b₁, b₂, rfl, hrun₁, hsingle.step_of_single, hrun₂⟩

/-- What every step preserves, every run preserves. -/
theorem preserves {P : Board → Prop} (hstep : ∀ b x b', P b → Step b x b' → P b') {b b' : Board}
    {h : List Happening} (hrun : Run b h b') (hb : P b) : P b' := by
  induction hrun with
  | refl => exact hb
  | step _ hs ih => exact hstep _ _ _ ih hs

end Run

/-! ## Section 3 — orderly runs -/

/-- A run in which the controller comes to answer differently only when all is done
at the instant. -/
inductive OrderlyRun : Board → List Happening → Board → Prop where
  | refl (b : Board) : OrderlyRun b [] b
  | step {b b' b'' : Board} {h : List Happening} {x : Happening} (hrun : OrderlyRun b h b')
      (hstep : Step b' x b'') (hquiet : ∀ s wall, x = .attended (.script s) wall → b'.Quiet) :
      OrderlyRun b (h ++ [x]) b''

namespace OrderlyRun

variable {b b' b'' : Board} {h h' : List Happening} {x : Happening}

theorem run (hrun : OrderlyRun b h b') : Run b h b' := by
  induction hrun with
  | refl => exact .refl _
  | step _ hstep _ ih => exact .step ih hstep

theorem single (hstep : Step b x b')
    (hquiet : ∀ s wall, x = .attended (.script s) wall → b.Quiet) :
    OrderlyRun b [x] b' := .step (.refl b) hstep hquiet

theorem append (hrun : OrderlyRun b h b') (hrun' : OrderlyRun b' h' b'') :
    OrderlyRun b (h ++ h') b'' := by
  induction hrun' with
  | refl => rwa [List.append_nil]
  | step _ hstep hquiet ih =>
    rw [← List.append_assoc]
    exact .step ih hstep hquiet

/-- A run in which the controller does not come to answer differently is orderly. -/
theorem of_run (hrun : Run b h b') (hno : ∀ x ∈ h, ∀ s wall, x ≠ .attended (.script s) wall) :
    OrderlyRun b h b' := by
  induction hrun with
  | refl => exact .refl _
  | step _ hstep ih =>
    exact .step (ih fun y hy => hno y (List.mem_append_left _ hy)) hstep fun s wall hx =>
      absurd hx (hno _ (by simp) s wall)

end OrderlyRun

end HouseBoard
