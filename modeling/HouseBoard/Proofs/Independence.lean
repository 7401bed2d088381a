/-
HouseBoard.Proofs.Independence — a view takes no notice of the other views.

What a view does depends on when it was mounted, on what the controller answers and when, and on
the time.  To show it, a view is put on its own (Section 1): all that reaches it are cues, with
their instants, and it does one thing after the other in the only order that there is.  Section
2 lets a view on a board and a view on its own go side by side through any orderly run, such as
a session is: each thing that the view on the board does is the next thing that the other one
does, or nothing.  Since a view on its own can do only one thing at a time, two views on two
boards that had the same cues are the same whenever all is done at an instant (Section 3).
-/
import HouseBoard.Proofs.Alike
import HouseBoard.Proofs.Alive
import HouseBoard.Proofs.Beat

namespace HouseBoard

/-! ## Section 1 — a view on its own -/

/-- What reaches a view from outside. -/
inductive Cue where
  /-- The controller answers differently from now on. -/
  | script (s : Script)
  | mount (kind : ViewKind)

namespace Happening

/-- The instant after a happening. -/
def instant (now : Nat) : Happening → Nat
  | .passed n => n
  | _ => now

/-- The cue for a view that a happening at an instant is, if it is one. -/
def cue (id : ViewId) (now : Nat) : Happening → List (Nat × Cue)
  | .attended (.script s) _ => [(now, .script s)]
  | .mounted j kind _ => if j = id then [(now, .mount kind)] else []
  | _ => []

/-- The cues for a view among happenings from an instant on, with their instants. -/
def cues (id : ViewId) : Nat → List Happening → List (Nat × Cue)
  | _, [] => []
  | now, x :: h => x.cue id now ++ cues id (x.instant now) h

theorem cues_append (id : ViewId) (now : Nat) (h h' : List Happening) :
    cues id now (h ++ h') = cues id now h ++ cues id (h.foldl instant now) h' := by
  induction h generalizing now with
  | nil => rfl
  | cons x h ih => rw [List.cons_append, cues, cues, ih, List.append_assoc, List.foldl_cons]

theorem eq_of_mem_cue {id : ViewId} {now : Nat} {x : Happening} {c : Nat × Cue}
    (h : c ∈ x.cue id now) : c.1 = now := by
  cases x with
  | mounted j kind n =>
    simp only [cue] at h
    split at h
    · rw [List.mem_singleton.mp h]
    · cases h
  | attended e wall =>
    cases e with
    | script s => rw [List.mem_singleton.mp h]
    | _ => cases h
  | _ => cases h

/-- What neither concerns a view nor changes the answers of the controller is no cue for it. -/
theorem cue_of_other {id : ViewId} {x : Happening} (hx : x.isOf id = false)
    (hscript : ∀ s wall, x ≠ .attended (.script s) wall) (now : Nat) : x.cue id now = [] := by
  simp only [isOf, beq_eq_false_iff_ne, ne_eq] at hx
  cases x with
  | mounted j kind n => exact if_neg fun h => hx (congrArg some h)
  | attended e wall =>
    cases e with
    | script s => exact absurd rfl (hscript s wall)
    | _ => rfl
  | _ => rfl

end Happening

/-- The one thing that a task has to do at an instant, if any. -/
def ViewTask.next? (t : ViewTask) (now : Nat) : Option Move :=
  if t.AwaitsUntil (now + 1) then (if t.tick.due ≤ now then some .tick else none)
  else if t.fetch.isSome then some .answers else some .poll

/-- A view that was mounted, with its slot and the states that it has learned. -/
structure LoneView where
  task : ViewTask
  slot : Slot
  learned : List (Nat × Snapshot) := []

/-- A view that does one thing. -/
def LoneView.move (intervals : Intervals) (now : Nat) (script : Script) (v : LoneView)
    (m : Move) : LoneView :=
  let result := (v.task.move intervals ⟨now, script, v.slot.snapshot⟩ m).exec { nextStamp := 0 }
  { task := result.1
    slot := result.2.effects.foldl (Slot.take 0) v.slot
    learned := v.learned ++ (result.2.effects.filterMap Effect.learned?).map fun s => (now, s) }

/-- A view on its own, which may still have to be mounted, and the cues that are
still to come. -/
structure Solo where
  now : Nat
  script : Script
  view : Option LoneView
  cues : List (Nat × Cue)

namespace Solo

/-- The view after the next thing that it has to do at the instant, if any. -/
def act? (intervals : Intervals) (σ : Solo) : Option LoneView :=
  σ.view.bind fun v => (v.task.next? σ.now).map (v.move intervals σ.now σ.script)

/-- Takes up a cue. -/
def hear (intervals : Intervals) (σ : Solo) : Cue → Solo
  | .script script => { σ with script }
  | .mount kind =>
    let task : ViewTask :=
      { id := 0, kind, poll := ⟨σ.now, none⟩, tick := ⟨σ.now + intervals.tick, none⟩ }
    { σ with view := some { task, slot := { kind } } }

/-- The next thing that happens to a view on its own: it does what it has to do; then it takes
up a cue; then a millisecond passes. -/
def step (intervals : Intervals) (σ : Solo) : Solo :=
  match σ.act? intervals with
  | some v => { σ with view := some v }
  | none => match σ.cues with
    | (n, cue) :: cues =>
      if n ≤ σ.now then { σ.hear intervals cue with cues } else { σ with now := σ.now + 1 }
    | [] => { σ with now := σ.now + 1 }

variable {intervals : Intervals} {σ : Solo}

theorem step_of_act? {v : LoneView} (h : σ.act? intervals = some v) :
    σ.step intervals = { σ with view := some v } := by
  simp only [step, h]

theorem step_of_cue {cue : Cue} {cues : List (Nat × Cue)} (h : σ.act? intervals = none)
    (hcues : σ.cues = (σ.now, cue) :: cues) :
    σ.step intervals = { σ.hear intervals cue with cues } := by
  simp [step, h, hcues]

theorem step_of_late (h : σ.act? intervals = none) (hcues : ∀ c ∈ σ.cues, σ.now < c.1) :
    σ.step intervals = { σ with now := σ.now + 1 } := by
  cases hc : σ.cues with
  | nil => simp only [step, h, hc]
  | cons c cues =>
    have hlate := hcues c (by simp [hc])
    simp only [step, h, hc, if_neg (Nat.not_le_of_lt hlate)]

theorem now_le_step (intervals : Intervals) (σ : Solo) : σ.now ≤ (σ.step intervals).now := by
  unfold step
  split
  · exact Nat.le_refl _
  · split
    · split
      · rename_i cue _ _ _
        cases cue <;> exact Nat.le_refl _
      · exact Nat.le_succ _
    · exact Nat.le_succ _

theorem now_le_iterate (n : Nat) (σ : Solo) : σ.now ≤ ((step intervals)^[n] σ).now := by
  induction n generalizing σ with
  | zero => exact Nat.le_refl _
  | succ n ih => exact Nat.le_trans (σ.now_le_step intervals) (ih (σ.step intervals))

/-- A view on its own has nothing left to do at the instant, and no cues are to come. -/
structure Rests (intervals : Intervals) (σ : Solo) : Prop where
  act : σ.act? intervals = none
  cues : σ.cues = []

theorem Rests.now_lt (h : σ.Rests intervals) {n : Nat} (hn : n ≠ 0) :
    σ.now < ((step intervals)^[n] σ).now := by
  obtain ⟨n, rfl⟩ := Nat.exists_eq_succ_of_ne_zero hn
  have hstep : σ.step intervals = { σ with now := σ.now + 1 } :=
    step_of_late h.act (by simp [h.cues])
  have hle : (σ.step intervals).now ≤ ((step intervals)^[n] (σ.step intervals)).now :=
    now_le_iterate n _
  rw [hstep] at hle
  rw [Function.iterate_succ_apply, hstep]
  exact hle

/-- There is only one state at an instant in which all is done. -/
theorem Rests.unique {m n : Nat} (hm : ((step intervals)^[m] σ).Rests intervals)
    (hn : ((step intervals)^[n] σ).Rests intervals)
    (hnow : ((step intervals)^[m] σ).now = ((step intervals)^[n] σ).now) :
    (step intervals)^[m] σ = (step intervals)^[n] σ := by
  -- no time passes in the steps by which one is ahead of the other, so there are none
  wlog hle : m ≤ n generalizing m n
  · exact (this hn hm hnow.symm (Nat.le_of_not_le hle)).symm
  obtain ⟨k, rfl⟩ := Nat.exists_eq_add_of_le hle
  rw [Nat.add_comm, Function.iterate_add_apply] at hnow ⊢
  by_cases hk : k = 0
  · rw [hk]
    rfl
  · exact absurd hnow (Nat.ne_of_lt (hm.now_lt hk))

end Solo

/-! ## Section 2 — side by side -/

theorem Step.now_eq_instant {b b' : Board} {x : Happening} (h : Step b x b') :
    b'.now = x.instant b.now := by
  cases x with
  | passed n =>
    obtain ⟨_, _, rfl⟩ := h.of_passed
    rfl
  | _ => exact h.now_eq (by simp)

theorem Run.now_eq_foldl {b b' : Board} {h : List Happening} (hrun : Run b h b') :
    b'.now = h.foldl Happening.instant b.now := by
  induction hrun with
  | refl => rfl
  | step _ hstep ih =>
    rw [List.foldl_append, ← ih, hstep.now_eq_instant, List.foldl_cons, List.foldl_nil]

namespace ViewTask

variable {t t' : ViewTask} {n : Nat}

theorem Same.next?_eq (h : t.Same t') (n : Nat) : t'.next? n = t.next? n := by
  have hfetch : t'.fetch.isSome = t.fetch.isSome := by
    have hsame := h.fetch
    generalize t.fetch = fetch at hsame
    generalize t'.fetch = fetch' at hsame
    cases hsame with
    | some => rfl
    | none => rfl
  simp only [next?, h.awaitsUntil_iff, h.tick_due, hfetch]

theorem next?_of_sleepsUntil (h : t.SleepsUntil (n + 1)) : t.next? n = none := by
  obtain ⟨_, hawaits, htick⟩ := h
  rw [next?, if_pos hawaits, if_neg (Nat.not_le_of_lt htick)]

end ViewTask

/-- A move of a task is the one thing that it has to do, or it does nothing. -/
theorem Board.turn_next {b : Board} {t : ViewTask} {m : Move} (hallows : t.Allows b.now m) :
    t.next? b.now = some m ∨ (b.turn t m).2.effects = [] ∧ ∀ u : ViewTask, u.Same t →
    u.Same (b.turn t m).1 := by
  -- answers come first, then polls, and a tick when there is neither: no two moves do
  -- something at once
  cases m with
  | answers =>
    by_cases hrests : t.AwaitsUntil (b.now + 1)
    · rw [turn_answers_of_awaitsUntil hrests]
      exact .inr ⟨rfl, fun u hu => hu⟩
    · cases hfetch : t.fetch with
      | some f =>
        rw [ViewTask.next?, if_neg hrests, hfetch]
        exact .inl rfl
      | none =>
        have hproceed : t.proceed (b.scene t.id) = pure t := by
          simp only [ViewTask.proceed, hfetch]
        rw [turn, ViewTask.move, hproceed]
        exact .inr ⟨rfl, fun u hu => hu⟩
  | poll =>
    have hbusy := ViewTask.not_awaitsUntil_of_pollsAt hallows
    have hnone : t.fetch.isNone = true := (Bool.and_eq_true_iff.mp hallows).1
    rw [ViewTask.next?, if_neg hbusy, Option.isNone_iff_eq_none.mp hnone]
    exact .inl rfl
  | tick =>
    have hrests : t.AwaitsUntil (b.now + 1) := hallows
    rcases b.turn_meets (m := .tick)
      (t.runTick_ensures b.intervals (b.scene t.id)) with ⟨hdue, _⟩ | ⟨_, hes, heq⟩
    · have hgone : t.tick.due ≤ b.now := hdue
      rw [ViewTask.next?, if_pos hrests, if_pos hgone]
      exact .inl rfl
    · rw [heq]
      exact .inr ⟨hes, fun u hu => hu⟩
  | rest =>
    obtain ⟨hpoll, htick, hfetch, _⟩ := b.turn_rest t
    exact .inr ⟨b.turn_rest_effects t, fun u hu =>
      hu.congr (b.turn_kind t .rest) hpoll htick hfetch⟩

/-- Two slots show the same. -/
structure Slot.Same (s s' : Slot) : Prop where
  snapshot_eq : s'.snapshot = s.snapshot
  offset_eq : s'.offset = s.offset

/-- Effects do the same to slots that show the same, whatever the wall clock shows. -/
theorem Slot.Same.foldl_take {s s' : Slot} (h : s.Same s') (wall wall' : Int)
    (es : List Effect) :
    (es.foldl (Slot.take wall) s).Same (es.foldl (Slot.take wall') s') := by
  induction es generalizing s s' with
  | nil => exact h
  | cons e es ih =>
    refine ih ?_
    cases e with
    | commit snapshot => exact ⟨rfl, rfl⟩
    | tick => exact ⟨h.snapshot_eq, congrArg (addSeconds · 1) h.offset_eq⟩
    | _ => exact h

/-- A view on its own is as it is on a board, where it has learned some states. -/
inductive LoneView.Matches (b : Board) (id : ViewId) (learned : List (Nat × Snapshot)) :
    Option LoneView → Prop where
  | absent (htask : b.task? id = none) (hlearned : learned = []) : Matches b id learned none
  | present {v : LoneView} {t : ViewTask} {slot : Slot} (ht : b.task? id = some t)
      (hawake : t.cancelled = false) (hslot : b.store.get? id = some slot)
      (htask : v.task.Same t) (hsame : v.slot.Same slot) (hlearned : v.learned = learned) :
      Matches b id learned (some v)

theorem LoneView.Matches.congr {b b' : Board} {id : ViewId} {learned : List (Nat × Snapshot)}
    {view : Option LoneView} (h : Matches b id learned view) (htask : b'.task? id = b.task? id)
    (hslot : b'.store.get? id = b.store.get? id) : Matches b' id learned view := by
  cases h with
  | absent hnone hlearned => exact .absent (htask.trans hnone) hlearned
  | present ht hawake hget hsame hslots hlearned =>
    exact .present (htask.trans ht) hawake (hslot.trans hget) hsame hslots hlearned

/-- A view on its own goes along with one on a board. -/
structure Solo.Matches (σ : Solo) (b : Board) (id : ViewId)
    (learned : List (Nat × Snapshot)) : Prop where
  now_eq : σ.now = b.now
  script_eq : σ.script = b.script
  view : LoneView.Matches b id learned σ.view

namespace Solo

variable {σ : Solo} {b b' : Board} {id : ViewId} {learned : List (Nat × Snapshot)}
  {intervals : Intervals}

theorem Matches.awake (h : σ.Matches b id learned) {t : ViewTask} (ht : b.task? id = some t) :
    t.cancelled = false := by
  have hview := h.view
  generalize σ.view = view at hview
  cases hview with
  | absent hnone =>
    rw [hnone] at ht
    cases ht
  | present ht' hawake =>
    rw [ht] at ht'
    cases ht'
    exact hawake

theorem Matches.act?_eq_none (h : σ.Matches b id learned)
    (hsleeps : ∀ t, b.task? id = some t → t.SleepsUntil (b.now + 1)) :
    σ.act? intervals = none := by
  have hview := h.view
  unfold act?
  generalize σ.view = view at hview
  cases hview with
  | absent => rfl
  | present ht hawake hslot htask =>
    rw [Option.bind_some, h.now_eq, ← htask.next?_eq,
      ViewTask.next?_of_sleepsUntil (hsleeps _ ht), Option.map_none]

/-- While there is nothing to do and no cue is due, time passes. -/
theorem iterate_step_of_idle (k : Nat)
    (hidle : ∀ j < k, { σ with now := σ.now + j }.act? intervals = none)
    (hlate : ∀ c ∈ σ.cues, σ.now + k ≤ c.1) :
    (step intervals)^[k] σ = { σ with now := σ.now + k } := by
  induction k with
  | zero => rfl
  | succ k ih =>
    have hrest := ih (fun j hj => hidle j (Nat.lt_succ_of_lt hj)) fun c hc =>
      Nat.le_of_succ_le (hlate c hc)
    rw [Function.iterate_succ_apply', hrest]
    exact step_of_late (hidle k (Nat.lt_succ_self k)) hlate

theorem Matches.pass (h : σ.Matches b id learned) {n : Nat} (hn : b.now < n)
    (hsleeps : b.SleepsUntil n) (hlate : ∀ c ∈ σ.cues, n ≤ c.1) :
    (step intervals)^[n - b.now] σ = { σ with now := n } := by
  have hnow := h.now_eq
  have hlast : σ.now + (n - b.now) = n := by omega
  rw [iterate_step_of_idle, hlast]
  · intro j hj
    have hearly : Matches { σ with now := σ.now + j } { b with now := b.now + j } id learned :=
      ⟨congrArg (· + j) hnow, h.script_eq, h.view.congr rfl rfl⟩
    exact hearly.act?_eq_none fun t ht =>
      (hsleeps t (Board.task?_mem ht)).mono (by simp only; omega)
  · rw [hlast]
    exact hlate

/-- A move of a view on a board is the next thing that the view on its own does, or nothing. -/
theorem Matches.move (h : σ.Matches b id learned) {t : ViewTask} {m : Move}
    (ht : b.task? id = some t) (hallows : t.Allows b.now m) (hnow : b'.now = b.now)
    (hscript : b'.script = b.script) (htask : b'.task? id = some (b.turn t m).1)
    (hslot : b'.store.get? id =
      (b.store.get? id).map fun slot => (b.turn t m).2.effects.foldl (Slot.take b.wall) slot) :
    ∃ k, ((step b.intervals)^[k] σ).Matches b' id
        (learned ++ ((b.turn t m).2.effects.filterMap Effect.learned?).map
          fun s => (b.now, s)) ∧
      ((step b.intervals)^[k] σ).cues = σ.cues := by
  obtain ⟨now, script, view, cues⟩ := σ
  obtain ⟨rfl, rfl, hview⟩ := h
  cases hview with
  | absent hnone =>
    rw [hnone] at ht
    cases ht
  | @present v t₀ slot ht₀ hawake hget hsame hslots hlearned =>
    rw [ht] at ht₀
    cases ht₀
    rw [hget] at hslot
    have hawake' : (b.turn t m).1.cancelled = false := (b.turn_cancelled t m).trans hawake
    rcases Board.turn_next hallows with hnext | ⟨hes, hkept⟩
    · -- the view on its own sees what the view on the board sees
      have hscene : b.scene t.id = ⟨b.now, b.script, v.slot.snapshot⟩ := by
        rw [Board.scene, Board.task?_id ht, hget, Option.bind_some, hslots.snapshot_eq]
      obtain ⟨heffects, htasks⟩ :=
        ViewTask.move_alike hsame b.intervals (b.scene t.id) m { nextStamp := 0 }
        { nextStamp := b.nextStamp } rfl
      have hturn :
        ((v.task.move b.intervals (b.scene t.id) m).exec { nextStamp := 0 }).2.effects =
          (b.turn t m).2.effects := heffects
      have hact : act? b.intervals ⟨b.now, b.script, some v, cues⟩ =
          some (v.move b.intervals b.now b.script m) := by
        simp only [act?, Option.bind_some, ← hsame.next?_eq, hnext, Option.map_some]
      refine ⟨1, ?_, ?_⟩
      · rw [Function.iterate_one, step_of_act? hact]
        refine ⟨hnow.symm, hscript.symm, .present htask hawake' hslot ?_ ?_ ?_⟩
        · simp only [LoneView.move, ← hscene]
          exact htasks
        · simp only [LoneView.move, ← hscene, hturn]
          exact hslots.foldl_take 0 b.wall _
        · simp only [LoneView.move, ← hscene, hturn, hlearned]
      · rw [Function.iterate_one, step_of_act? hact]
    · refine ⟨0, ⟨hnow.symm, hscript.symm, ?_⟩, rfl⟩
      rw [hes] at hslot ⊢
      exact .present htask hawake' hslot (hkept _ hsame) hslots (by simp [hlearned])

theorem Matches.mounted (h : σ.Matches b id learned) (hnone : b.task? id = none)
    {kind : ViewKind} {stamp : Nat} {cues : List (Nat × Cue)}
    (hcues : σ.cues = (b.now, .mount kind) :: cues) (hnow : b'.now = b.now)
    (hscript : b'.script = b.script)
    (htask : b'.task? id = some
      { id, kind, poll := ⟨b.now, some stamp⟩, tick := ⟨b.now + b.intervals.tick, none⟩ })
    (hslot : b'.store.get? id = some { kind }) :
    (σ.step b.intervals).Matches b' id learned ∧ (σ.step b.intervals).cues = cues := by
  have hidle : σ.act? b.intervals = none := h.act?_eq_none fun t ht => by simp [hnone] at ht
  obtain ⟨now, script, view, cues₀⟩ := σ
  obtain ⟨rfl, rfl, hview⟩ := h
  cases hview with
  | present ht =>
    rw [hnone] at ht
    cases ht
  | absent _ hlearned =>
    rw [step_of_cue hidle hcues]
    refine ⟨⟨hnow.symm, hscript.symm, ?_⟩, rfl⟩
    exact .present htask rfl hslot ⟨rfl, rfl, rfl, .none⟩ ⟨rfl, rfl⟩ hlearned.symm

/-- A view on its own hears that the controller answers differently once it has
nothing left to do. -/
theorem Matches.script (h : σ.Matches b id learned)
    (hsleeps : ∀ t, b.task? id = some t → t.SleepsUntil (b.now + 1)) {s : Script}
    {cues : List (Nat × Cue)} (hcues : σ.cues = (b.now, .script s) :: cues) :
    (σ.step intervals).Matches (b.attend (.script s)) id learned ∧
    (σ.step intervals).cues = cues := by
  have hidle : σ.act? intervals = none := h.act?_eq_none hsleeps
  obtain ⟨now, script, view, cues₀⟩ := σ
  obtain ⟨rfl, rfl, hview⟩ := h
  rw [step_of_cue hidle hcues]
  exact ⟨⟨rfl, rfl, hview.congr rfl rfl⟩, rfl⟩

/-- A view on its own goes along with each step of a board, if it hears of what
concerns it in time. -/
theorem Matches.step {x : Happening} {rest : List (Nat × Cue)} (h : σ.Matches b id learned)
    (hstep : Step b x b') (htidy : b.Tidy)
    (hquiet : ∀ s wall, x = .attended (.script s) wall → b.Quiet) (hfall : x.isFall = false)
    (hkept : x ≠ .dropped id) (hcues : σ.cues = x.cue id b.now ++ rest)
    (hlate : ∀ c ∈ rest, b'.now ≤ c.1) :
    ∃ k, ((Solo.step b.intervals)^[k] σ).Matches b' id (learned ++ x.learned id) ∧
      ((Solo.step b.intervals)^[k] σ).cues = rest := by
  cases hstep.fate htidy id with
  | other hx htask hslot =>
    rw [Happening.learned_of_other hx, List.append_nil]
    by_cases hscript : ∃ s wall, x = .attended (.script s) wall
    · obtain ⟨s, wall, rfl⟩ := hscript
      obtain ⟨_, rfl⟩ := hstep.of_attended
      exact ⟨1, h.script (fun t ht => hquiet s wall rfl t (Board.task?_mem ht)) hcues⟩
    have hno : ∀ s wall, x ≠ .attended (.script s) wall :=
      fun s wall heq => hscript ⟨s, wall, heq⟩
    rw [Happening.cue_of_other hx hno, List.nil_append] at hcues
    rcases hstep.now_cases with hnow | ⟨n, _, hn, hsleeps, rfl⟩
    · refine ⟨0, ⟨h.now_eq.trans hnow.symm, ?_, h.view.congr htask hslot⟩, hcues⟩
      exact h.script_eq.trans (hstep.script_eq hno).symm
    · refine ⟨n - b.now, ?_⟩
      rw [h.pass hn hsleeps (hcues ▸ hlate)]
      exact ⟨⟨rfl, h.script_eq, h.view.congr rfl rfl⟩, hcues⟩
  | @mounted kind stamp hid htask hslot =>
    have hnow : b'.now = b.now := hstep.now_eq (by simp)
    have hsame : b'.script = b.script := hstep.script_eq (by simp)
    have hcue : (Happening.mounted id kind b.now).cue id b.now = [(b.now, .mount kind)] :=
      if_pos rfl
    have hlearned : (Happening.mounted id kind b.now).learned id = [] := rfl
    rw [hcue] at hcues
    rw [hlearned, List.append_nil]
    exact ⟨1, h.mounted (htidy.task?_eq_none (Nat.le_of_eq hid.symm)) hcues hnow
      hsame htask hslot⟩
  | dropped => exact absurd rfl hkept
  | left ht hcancelled =>
    rw [h.awake ht] at hcancelled
    cases hcancelled
  | @moved t m ht hcancelled hallows htask hslot =>
    have hnow : b'.now = b.now := hstep.now_eq (by simp)
    have hsame : b'.script = b.script := hstep.script_eq (by simp)
    rw [Happening.learned_moved]
    obtain ⟨k, hmatches, hrest⟩ := h.move ht hallows hnow hsame htask hslot
    exact ⟨k, hmatches, hrest.trans hcues⟩
  | fell => cases hfall

end Solo

/-- A view on its own goes along with a whole run. -/
theorem OrderlyRun.matches_iterate {b b' : Board} {h : List Happening} {id : ViewId} {σ : Solo}
    {rest : List (Nat × Cue)} (hrun : OrderlyRun b h b') (htidy : b.Tidy)
    (hno : ∀ x ∈ h, x.isFall = false) (hkept : .dropped id ∉ h) (hσ : σ.Matches b id [])
    (hcues : σ.cues = Happening.cues id b.now h ++ rest) (hlate : ∀ c ∈ rest, b'.now ≤ c.1) :
    ∃ n, ((Solo.step b.intervals)^[n] σ).Matches b' id (Happening.commits id h) ∧
      ((Solo.step b.intervals)^[n] σ).cues = rest := by
  induction hrun generalizing rest with
  | refl => exact ⟨0, hσ, hcues⟩
  | @step b₁ b₂ h₁ x hrun₁ hstep hquiet ih =>
    have hnow : b₁.now = h₁.foldl Happening.instant b.now := hrun₁.run.now_eq_foldl
    have hcue : Happening.cues id b.now (h₁ ++ [x]) =
        Happening.cues id b.now h₁ ++ x.cue id b₁.now := by
      rw [Happening.cues_append, ← hnow, Happening.cues, Happening.cues, List.append_nil]
    -- a cue of the step itself is not late, and the others come later still
    have hlate₁ : ∀ c ∈ x.cue id b₁.now ++ rest, b₁.now ≤ c.1 := by
      intro c hc
      rcases List.mem_append.mp hc with hc | hc
      · exact Nat.le_of_eq (Happening.eq_of_mem_cue hc).symm
      · exact Nat.le_trans hstep.now_le (hlate c hc)
    have hkeeps : x ≠ .dropped id := by
      rintro rfl
      exact hkept (by simp)
    rw [hcue, List.append_assoc] at hcues
    obtain ⟨m, hm, hmrest⟩ := ih (fun y hy => hno y (List.mem_append_left _ hy))
      (fun hmem => hkept (List.mem_append_left _ hmem)) hcues hlate₁
    obtain ⟨k, hk, hkrest⟩ :=
      hm.step hstep (hrun₁.run.tidy htidy) hquiet (hno x (by simp)) hkeeps hmrest hlate
    rw [hrun₁.run.settings_eq.1, ← Function.iterate_add_apply] at hk hkrest
    rw [Happening.commits_append, Happening.commits_singleton]
    exact ⟨k + m, hk, hkrest⟩

/-! ## Section 3 — two boards -/

theorem Solo.Matches.agree {σ : Solo} {b b' : Board} {id id' : ViewId}
    {learned learned' : List (Nat × Snapshot)} (h : σ.Matches b id learned)
    (h' : σ.Matches b' id' learned') {t : ViewTask} (ht : b.task? id = some t) :
    ∃ slot slot', b.store.get? id = some slot ∧ b'.store.get? id' = some slot' ∧
      slot.snapshot = slot'.snapshot ∧
      slot.offset = slot'.offset ∧ learned = learned' := by
  obtain ⟨_, _, hview⟩ := h
  obtain ⟨_, _, hview'⟩ := h'
  generalize σ.view = view at hview hview'
  cases hview with
  | absent hnone =>
    rw [hnone] at ht
    cases ht
  | present _ _ hslot _ hsame hlearned =>
    cases hview' with
    | present _ _ hslot' _ hsame' hlearned' =>
      exact ⟨_, _, hslot, hslot', hsame.snapshot_eq.trans hsame'.snapshot_eq.symm,
        hsame.offset_eq.trans hsame'.offset_eq.symm, hlearned.symm.trans hlearned'⟩

/-- When all is done at an instant, a view that had some cues is a view on its own that has gone
on from the start until all is done. -/
theorem OrderlyRun.rests_iterate {s : Settings} {intervals : Intervals} {wall : Int}
    {firstToast : Uuid} {h : List Happening} {b : Board} {id : ViewId}
    (hrun : OrderlyRun (Board.start s intervals wall firstToast) h b)
    (hcal : ∀ x ∈ h, x.InCalendar (Timestamp.signedSeconds s.notifications.durationSecs))
    (hkept : .dropped id ∉ h) (hquiet : b.Quiet) :
    ∃ n, ((Solo.step intervals)^[n] ⟨0, {}, none, Happening.cues id 0 h⟩).Matches b id
      (Happening.commits id h) ∧
      ((Solo.step intervals)^[n] ⟨0, {}, none, Happening.cues id 0 h⟩).Rests intervals := by
  rw [← Board.lifetime_start s intervals wall firstToast] at hcal
  have hfirst : Solo.Matches ⟨0, {}, none, Happening.cues id 0 h⟩
      (Board.start s intervals wall firstToast) id [] :=
    ⟨rfl, rfl, .absent rfl rfl⟩
  have hall : Happening.cues id 0 h = Happening.cues id 0 h ++ [] := (List.append_nil _).symm
  obtain ⟨n, hmatches, hcues⟩ :=
    hrun.matches_iterate (Board.tidy_start s intervals wall firstToast)
    (hrun.run.isFall_eq_false hcal).1 hkept hfirst hall (by simp)
  exact ⟨n, hmatches, hmatches.act?_eq_none fun t ht => hquiet t (Board.task?_mem ht), hcues⟩

/-- Views do not depend on each other.  Two runs may differ in everything but the intervals,
when and how the controller comes to answer differently, and when a view of one kind is mounted
that is not given up.  Whenever all is done at the same instant of both, the slots of the view
hold the same snapshot and the same count, and the view has learned the same states at the same
instants. -/
theorem OrderlyRun.views_independent {s s' : Settings} {intervals : Intervals}
    {wall wall' : Int} {firstToast firstToast' : Uuid} {h h' : List Happening} {b b' : Board}
    {id id' : ViewId} {kind : ViewKind} {mounted : Nat}
    (hrun : OrderlyRun (Board.start s intervals wall firstToast) h b)
    (hrun' : OrderlyRun (Board.start s' intervals wall' firstToast') h' b')
    (hcal : ∀ x ∈ h, x.InCalendar (Timestamp.signedSeconds s.notifications.durationSecs))
    (hcal' : ∀ x ∈ h', x.InCalendar (Timestamp.signedSeconds s'.notifications.durationSecs))
    (hmounted : .mounted id kind mounted ∈ h) (hkept : .dropped id ∉ h)
    (hkept' : .dropped id' ∉ h') (hcues : Happening.cues id 0 h = Happening.cues id' 0 h')
    (hnow : b.now = b'.now) (hquiet : b.Quiet) (hquiet' : b'.Quiet) :
    ∃ slot slot', b.store.get? id = some slot ∧ b'.store.get? id' = some slot' ∧
      slot.snapshot = slot'.snapshot ∧
      slot.offset = slot'.offset ∧ Happening.commits id h = Happening.commits id' h' := by
  obtain ⟨m, hm, hmrests⟩ := hrun.rests_iterate hcal hkept hquiet
  obtain ⟨n, hn, hnrests⟩ := hrun'.rests_iterate hcal' hkept' hquiet'
  rw [← hcues] at hn hnrests
  have hsame := hmrests.unique hnrests (hm.now_eq.trans (hnow.trans hn.now_eq.symm))
  rw [← hsame] at hn
  rw [← Board.lifetime_start s intervals wall firstToast] at hcal
  obtain ⟨t, ht, _⟩ := hrun.run.runs_of_mounted (Board.tidy_start s intervals wall firstToast)
    (hrun.run.isFall_eq_false hcal).1 hmounted hkept
  exact hm.agree hn ht

/-- An alarm view alone, and one beside another alarm view that is given up while its
call is on its way. -/
theorem OrderlyRun.alarms_independent :
    ∃ (h h' : List Happening) (b b' : Board) (slot slot' : Slot),
    OrderlyRun (Board.start {} ⟨200, 1000, by decide, by decide⟩ 0 ⟨0⟩) h b ∧
      OrderlyRun (Board.start {} ⟨200, 1000, by decide, by decide⟩ 5000 ⟨7⟩) h' b' ∧
      .mounted 1 .alarm 0 ∈ h ∧
      .mounted 1 .alarm 0 ∈ h' ∧ .dropped 1 ∈ h' ∧ .mounted 2 .alarm 0 ∈ h' ∧
      Happening.cues 1 0 h = Happening.cues 2 0 h' ∧ b.now = 100 ∧ b'.now = 100 ∧
      b.Quiet ∧ b'.Quiet ∧
      b.store.get? 1 = some slot ∧ b'.store.get? 2 = some slot' ∧
      slot.snapshot = slot'.snapshot ∧
      slot.offset = slot'.offset ∧ Happening.commits 1 h = Happening.commits 2 h' ∧
      Happening.commits 1 h = [(100, .alarm default)] := by
  let script : Script := { alarm := some default, delays := [(.alarm, 100)] }
  let b₀ := Board.start {} ⟨200, 1000, by decide, by decide⟩ 0 ⟨0⟩
  let b₁ := ((b₀.attend (.script script)).hold .alarm).2
  let b₂ := { b₁.move 1 .poll with now := 100 }
  let b₃ := b₂.move 1 .answers
  let h : List Happening :=
    [.mounted 1 .alarm 0, b₁.moving 1 .poll, .passed 100, b₂.moving 1 .answers]
  have hopen : Step b₁ (b₁.moving 1 .poll) (b₁.move 1 .poll) := .of_canMove (by decide +kernel)
  have hsleeps : (b₁.move 1 .poll).SleepsUntil 100 := by decide +kernel
  have hclose : Step b₂ (b₂.moving 1 .answers) b₃ := .of_canMove (by decide +kernel)
  have hrest : Run (b₀.attend (.script script)) h b₃ :=
    .cons (.hold _ .alarm) <| .cons hopen <| .cons (.pass (by decide +kernel) hsleeps) <|
      .single hclose
  have hrun : OrderlyRun b₀ (.attended (.script script) 0 :: h) b₃ :=
    (OrderlyRun.single (.attend b₀ _) fun _ _ _ t ht => nomatch ht).append <|
      .of_run hrest (by simp [Board.moving])
  let c₀ := Board.start {} ⟨200, 1000, by decide, by decide⟩ 5000 ⟨7⟩
  let c₁ := (((c₀.attend (.script script)).hold .alarm).2.hold .alarm).2
  let c₂ := c₁.move 1 .poll
  let c₃ := { c₂.move 2 .poll with now := 50 }
  let c₄ := { (c₃.release 1).2.finish 1 with now := 100 }
  let c₅ := c₄.move 2 .answers
  let h' : List Happening := [.mounted 1 .alarm 0, .mounted 2 .alarm 0, c₁.moving 1 .poll,
    c₂.moving 2 .poll,
    .passed 50, .dropped 1, .left 1, .passed 100, c₄.moving 2 .answers]
  have hopen₁ : Step c₁ (c₁.moving 1 .poll) c₂ := .of_canMove (by decide +kernel)
  have hopen₂ : Step c₂ (c₂.moving 2 .poll) (c₂.move 2 .poll) := .of_canMove (by decide +kernel)
  have hsleeps₁ : (c₂.move 2 .poll).SleepsUntil 50 := by decide +kernel
  have hends : ((c₃.release 1).2.task? 1).any (·.cancelled) = true := by decide +kernel
  obtain ⟨t, ht, hcancelled⟩ := (Option.any_eq_true ..).mp hends
  have hsleeps₂ : ((c₃.release 1).2.finish 1).SleepsUntil 100 := by decide +kernel
  have hclose' : Step c₄ (c₄.moving 2 .answers) c₅ := .of_canMove (by decide +kernel)
  have hrest' : Run (c₀.attend (.script script)) h' c₅ :=
    .cons (.hold _ .alarm) <| .cons (.hold _ .alarm) <| .cons hopen₁ <| .cons hopen₂ <|
      .cons (.pass (by decide +kernel) hsleeps₁) <| .cons (.release (by decide +kernel)) <|
      .cons (.leave ht hcancelled) <| .cons (.pass (by decide +kernel) hsleeps₂) <|
        .single hclose'
  have hrun' : OrderlyRun c₀ (.attended (.script script) 5000 :: h') c₅ :=
    (OrderlyRun.single (.attend c₀ _) fun _ _ _ t ht => nomatch ht).append <|
      .of_run hrest' (by simp [Board.moving])
  have hcues : Happening.cues 1 0 (.attended (.script script) 0 :: h) =
      Happening.cues 2 0 (.attended (.script script) 5000 :: h') := rfl
  have hquiet : b₃.Quiet := by decide +kernel
  have hquiet' : c₅.Quiet := by decide +kernel
  have hmounted : .mounted 1 .alarm 0 ∈ .attended (.script script) 0 :: h := by simp [h]
  have hcal : ∀ x ∈ .attended (.script script) 0 :: h,
      x.InCalendar (Timestamp.signedSeconds ({} : Settings).notifications.durationSecs) := by
        decide +kernel
  have hcal' : ∀ x ∈ .attended (.script script) 5000 :: h',
      x.InCalendar (Timestamp.signedSeconds ({} : Settings).notifications.durationSecs) := by
        decide +kernel
  obtain ⟨slot, slot', hslot, hslot', hsnapshot, hoffset, hcommits⟩ :=
    OrderlyRun.views_independent hrun hrun' hcal hcal' hmounted (by simp [h, Board.moving])
      (by simp [h', Board.moving]) hcues (by decide +kernel) hquiet hquiet'
  exact ⟨_, _, b₃, c₅, slot, slot', hrun, hrun', hmounted, by simp [h'], by simp [h'],
    by simp [h'], hcues, by decide +kernel, by decide +kernel, hquiet, hquiet', hslot, hslot',
    hsnapshot, hoffset, hcommits, by decide +kernel⟩

end HouseBoard
