/-
HouseBoard.Proofs.Pace — when polls start.

The polls of a view are told by the instants at which they opened and closed.  `Pace` is what
these instants have to do with the task of the view: the next poll is due on the grid that
begins at the mounting, the last one opened within a period of it, and each opened on the grid
or at the very instant at which the one before closed.  Every step keeps the pace, and from it
the main statement follows: polls never overlap, and no period is missed.
-/
import HouseBoard.Proofs.Tidy

namespace HouseBoard

/-! ## Section 1 — polls in time -/

namespace Happening

/-- The instant at which a poll of a view opened. -/
def openedAt? (id : ViewId) : Happening → Option Nat
  | .moved j .poll w _ _ => if j = id then some w.now else none
  | _ => none

/-- The instant at which a poll of a view closed. -/
def closedAt? (id : ViewId) : Happening → Option Nat
  | .moved j _ w _ true => if j = id then some w.now else none
  | _ => none

/-- The instants at which the polls of a view opened. -/
def opens (id : ViewId) (h : List Happening) : List Nat := h.filterMap (openedAt? id)

/-- The instants at which the polls of a view closed. -/
def closes (id : ViewId) (h : List Happening) : List Nat := h.filterMap (closedAt? id)

variable {id : ViewId}

theorem opens_append (h h' : List Happening) : opens id (h ++ h') = opens id h ++ opens id h' :=
  List.filterMap_append

theorem closes_append (h h' : List Happening) :
    closes id (h ++ h') = closes id h ++ closes id h' :=
  List.filterMap_append

/-- What does not concern a view is no part of its polls. -/
theorem opens_closes_of_other {x : Happening} (hx : x.isOf id = false) :
    opens id [x] = [] ∧ closes id [x] = [] := by
  simp only [isOf, beq_eq_false_iff_ne, ne_eq] at hx
  cases x with
  | moved j m w es ended =>
    have hne : j ≠ id := fun h => hx (congrArg some h)
    cases m <;> cases ended <;> simp [opens, closes, openedAt?, closedAt?, hne]
  | _ => exact ⟨rfl, rfl⟩

theorem opens_closes_of_others {h : List Happening} (hh : ∀ x ∈ h, x.isOf id = false) :
    opens id h = [] ∧ closes id h = [] := by
  induction h with
  | nil => exact ⟨rfl, rfl⟩
  | cons x xs ih =>
    obtain ⟨hopens, hcloses⟩ := ih fun y hy => hh y (List.mem_cons_of_mem _ hy)
    obtain ⟨hopen, hclose⟩ := opens_closes_of_other (hh x List.mem_cons_self)
    rw [← List.singleton_append, opens_append, closes_append, hopens, hcloses, hopen, hclose]
    exact ⟨rfl, rfl⟩

/-- A move that keeps the fetch as it is neither opens nor closes a poll, unless it
starts one. -/
theorem opens_closes_of_kept (id : ViewId) {m : Move} (w : Moment) (es : List Effect)
    {ended : Bool} {fetch fetch' : Option Fetch}
    (hended : ended = (fetch.isSome && fetch'.isNone)) (hkept : fetch' = fetch)
    (hm : m ≠ .poll) : opens id [.moved id m w es ended] = [] ∧
    closes id [.moved id m w es ended] = [] := by
  have hfalse : ended = false := by
    rw [hended, hkept]
    cases fetch <;> rfl
  subst hfalse
  cases m with
  | poll => exact absurd rfl hm
  | _ => exact ⟨rfl, rfl⟩

end Happening

/-! ## Section 2 — the pace of a task -/

/-- The polls of a view that was mounted at an instant keep pace with a period. -/
structure Pace (period mounted now : Nat) (t : ViewTask) (opens closes : List Nat) : Prop where
  mounted_le : mounted ≤ now
  /-- The next poll is due on the grid, after as many periods as polls have opened at least. -/
  onGrid : ∃ k, t.poll.due = mounted + k * period ∧ opens.length ≤ k
  due_le : t.poll.due ≤ now + period
  first : opens = [] → t.poll.due = mounted
  recent : ∀ n, opens.getLast? = some n → t.poll.due ≤ n + period
  count : opens.length = closes.length + (if t.fetch.isSome then 1 else 0)
  ended : t.fetch = none → now ≤ t.poll.due ∨ closes.getLast? = some now
  starts : ∀ i n, opens[i]? = some n → (∃ k, n = mounted + k * period) ∨ ∃ j,
    i = j + 1 ∧ closes[j]? = some n
  closed_le : ∀ n ∈ closes, n ≤ now
  apart : ∀ i n, opens[i + 1]? = some n → ∃ c, closes[i]? = some c ∧ c ≤ n

namespace Pace

variable {period mounted now : Nat} {t t' : ViewTask} {opens closes : List Nat}

/-- A view that was just mounted keeps pace. -/
theorem of_mounted (hdue : t.poll.due = mounted) (hfetch : t.fetch = none) :
    Pace period mounted mounted t [] [] where
  mounted_le := Nat.le_refl _
  onGrid := ⟨0, by simp [hdue], by simp⟩
  due_le := by omega
  first := fun _ => hdue
  recent := fun n h => nomatch h
  count := by simp [hfetch]
  ended := fun _ => .inl (Nat.le_of_eq hdue.symm)
  starts := fun i n h => by simp at h
  closed_le := fun n h => nomatch h
  apart := fun i n h => by simp at h

/-- What matters of a task is when its poll is due, and whether a fetch is on its way. -/
theorem congr (hp : Pace period mounted now t opens closes) (hdue : t'.poll.due = t.poll.due)
    (hfetch : t'.fetch.isSome = t.fetch.isSome) : Pace period mounted now t' opens closes where
  mounted_le := hp.mounted_le
  onGrid := hdue ▸ hp.onGrid
  due_le := hdue ▸ hp.due_le
  first := hdue ▸ hp.first
  recent := hdue ▸ hp.recent
  count := hfetch ▸ hp.count
  ended := by
    intro hnone
    rw [hdue]
    refine hp.ended ?_
    cases hf : t.fetch with
    | none => rfl
    | some f =>
      rw [hnone, hf] at hfetch
      cases hfetch
  starts := hp.starts
  closed_le := hp.closed_le
  apart := hp.apart

/-- Time that passes while a task sleeps keeps the pace. -/
theorem pass (hp : Pace period mounted now t opens closes) {n : Nat} (hn : now < n)
    (hsleeps : t.SleepsUntil n) :
    Pace period mounted n t opens closes where
  mounted_le := Nat.le_trans hp.mounted_le (Nat.le_of_lt hn)
  onGrid := hp.onGrid
  due_le := Nat.le_trans hp.due_le (Nat.add_le_add_right (Nat.le_of_lt hn) _)
  first := hp.first
  recent := hp.recent
  count := hp.count
  ended := by
    intro hnone
    have hawaits := hsleeps.2.1
    rw [ViewTask.AwaitsUntil, hnone] at hawaits
    exact .inl hawaits
  starts := hp.starts
  closed_le := fun c hc => Nat.le_trans (hp.closed_le c hc) (Nat.le_of_lt hn)
  apart := hp.apart

/-- What stands in a list stands there when the list grows at its end. -/
theorem getElem?_concat_of_some {l : List Nat} {i n m : Nat} (h : l[i]? = some n) :
    (l ++ [m])[i]? = some n := by
  rw [List.getElem?_append_left (List.getElem?_eq_some_iff.mp h).1]
  exact h

/-- What stands in a list that has grown at its end stood there before, or is the end. -/
theorem getElem?_concat_cases {l : List Nat} {i n m : Nat} (h : (l ++ [m])[i]? = some n) :
    l[i]? = some n ∨ (i = l.length ∧ n = m) := by
  rcases Nat.lt_trichotomy i l.length with hlt | rfl | hgt
  · rw [List.getElem?_append_left hlt] at h
    exact .inl h
  · rw [List.getElem?_concat_length] at h
    exact .inr ⟨rfl, (Option.some.inj h).symm⟩
  · rw [List.getElem?_eq_none (by simp only [List.length_append, List.length_singleton]; omega)]
      at h
    cases h

/-- A poll that opens when it is due keeps the pace. -/
theorem opened (hp : Pace period mounted now t opens closes) (hpos : 0 < period)
    (hpolls : t.pollsAt now = true) (hpoll : t'.poll = t.poll.next period now)
    (hfetch : t'.fetch.isSome = true) : Pace period mounted now t' (opens ++ [now]) closes := by
  simp only [ViewTask.pollsAt, Bool.and_eq_true, Option.isNone_iff_eq_none,
    decide_eq_true_eq] at hpolls
  obtain ⟨hnone, hdue⟩ := hpolls
  obtain ⟨k, hk, hle⟩ := hp.onGrid
  obtain ⟨l, hl, hnext⟩ := Timer.next_due hdue hpos
  rw [← hpoll] at hl hnext
  -- all polls before the one that opens have closed
  have hcount : opens.length = closes.length := by
    have hcount := hp.count
    rwa [hnone] at hcount
  refine ⟨hp.mounted_le, ⟨k + (l + 1), ?_, ?_⟩, hnext, ?_, ?_, ?_, ?_, ?_, hp.closed_le, ?_⟩
  · rw [hl, hk, Nat.add_mul k, Nat.add_assoc]
  · simp only [List.length_append, List.length_singleton]
    omega
  · simp
  · intro n hn
    rw [List.getLast?_concat] at hn
    cases hn
    exact hnext
  · simp [hcount, hfetch]
  · intro hf
    rw [hf] at hfetch
    cases hfetch
  · intro i n hi
    rcases getElem?_concat_cases hi with hi | ⟨rfl, rfl⟩
    · exact hp.starts i n hi
    · rcases hp.ended hnone with hearly | hlast
      · -- the poll was not late, and opens on the grid
        exact .inl ⟨k, hk ▸ Nat.le_antisymm hearly hdue⟩
      · rw [List.getLast?_eq_getElem?] at hlast
        cases closes with
        | nil => cases hlast
        | cons c cs => exact .inr ⟨cs.length, by simpa using hcount, by simpa using hlast⟩
  · intro i n hi
    rcases getElem?_concat_cases hi with hi | ⟨hlast, rfl⟩
    · exact hp.apart i n hi
    · have hclosed : i < closes.length := by omega
      exact ⟨closes[i], List.getElem?_eq_getElem hclosed,
        hp.closed_le _ (List.getElem_mem hclosed)⟩

/-- A poll that closes keeps the pace. -/
theorem closed (hp : Pace period mounted now t opens closes) (hpoll : t'.poll = t.poll)
    (hfetch : t.fetch.isSome = true) (hfetch' : t'.fetch = none) :
    Pace period mounted now t' opens (closes ++ [now]) where
  mounted_le := hp.mounted_le
  onGrid := hpoll ▸ hp.onGrid
  due_le := hpoll ▸ hp.due_le
  first := hpoll ▸ hp.first
  recent := hpoll ▸ hp.recent
  count := by
    have hcount := hp.count
    rw [if_pos hfetch] at hcount
    simp [hfetch', hcount]
  ended := fun _ => .inr List.getLast?_concat
  starts := by
    intro i n hi
    rcases hp.starts i n hi with hgrid | ⟨j, hj, hclosed⟩
    · exact .inl hgrid
    · exact .inr ⟨j, hj, getElem?_concat_of_some hclosed⟩
  closed_le := by
    intro n hn
    rcases List.mem_append.mp hn with hn | hn
    · exact hp.closed_le n hn
    · exact Nat.le_of_eq (List.mem_singleton.mp hn)
  apart := by
    intro i n hi
    obtain ⟨c, hclosed, hle⟩ := hp.apart i n hi
    exact ⟨c, getElem?_concat_of_some hclosed, hle⟩

end Pace

/-! ## Section 3 — steps and runs -/

/-- Every move of a task keeps its pace. -/
theorem Pace.move {b : Board} {t : ViewTask} {m : Move} {id : ViewId} {mounted : Nat}
    {opens closes : List Nat} (hp : Pace b.intervals.poll mounted b.now t opens closes)
    (hallows : t.Allows b.now m) :
    Pace b.intervals.poll mounted b.now (b.turn t m).1
      (opens ++ Happening.opens id [.moved id m b.moment (b.turn t m).2.effects
        (t.fetch.isSome && (b.turn t m).1.fetch.isNone)])
      (closes ++ Happening.closes id [.moved id m b.moment (b.turn t m).2.effects
        (t.fetch.isSome && (b.turn t m).1.fetch.isNone)]) := by
  generalize hended : (t.fetch.isSome && (b.turn t m).1.fetch.isNone) = ended
  generalize (b.turn t m).2.effects = es
  cases m with
  | answers =>
    obtain ⟨hpoll, _, hnone⟩ := b.turn_answers t
    have hopen : Happening.opens id [.moved id .answers b.moment es ended] = [] := rfl
    rw [hopen, List.append_nil]
    cases ended with
    | true =>
      have hclose : Happening.closes id [.moved id .answers b.moment es true] = [b.now] := by
        simp [Happening.closes, Happening.closedAt?, Board.moment]
      obtain ⟨hsome, hnone'⟩ := Bool.and_eq_true_iff.mp hended
      rw [hclose]
      exact hp.closed hpoll hsome (Option.isNone_iff_eq_none.mp hnone')
    | false =>
      have hclose : Happening.closes id [.moved id .answers b.moment es false] = [] := rfl
      rw [hclose, List.append_nil]
      refine hp.congr (congrArg Timer.due hpoll) ?_
      cases hfetch : t.fetch with
      | none => rw [hnone hfetch]
      | some f => simpa [hfetch] using hended
  | poll =>
    obtain ⟨hpoll, _, hfetch⟩ := b.turn_poll t
    have hopen : Happening.opens id [.moved id .poll b.moment es ended] = [b.now] := by
      simp [Happening.opens, Happening.openedAt?, Board.moment]
    have hclose : Happening.closes id [.moved id .poll b.moment es ended] = [] := by
      simp [← hended, Option.isNone_eq_false_iff.mpr hfetch, Happening.closes,
        Happening.closedAt?]
    rw [hopen, hclose, List.append_nil]
    exact hp.opened b.intervals.poll_pos hallows hpoll hfetch
  | tick =>
    obtain ⟨hpoll, hfetch, _⟩ := b.turn_tick t
    obtain ⟨hopen, hclose⟩ :=
      Happening.opens_closes_of_kept id (m := .tick) b.moment es hended.symm hfetch (by decide)
    rw [hopen, hclose, List.append_nil, List.append_nil]
    exact hp.congr (congrArg Timer.due hpoll) (congrArg Option.isSome hfetch)
  | rest =>
    obtain ⟨hdue, _, hfetch, _⟩ := b.turn_rest t
    obtain ⟨hopen, hclose⟩ :=
      Happening.opens_closes_of_kept id (m := .rest) b.moment es hended.symm hfetch (by decide)
    rw [hopen, hclose, List.append_nil, List.append_nil]
    exact hp.congr hdue (congrArg Option.isSome hfetch)

/-- Every step keeps the pace of a view. -/
theorem Step.pace {b b' : Board} {x : Happening} {id : ViewId} {mounted : Nat}
    {opens closes : List Nat} (h : Step b x b') (htidy : b.Tidy) (hid : id < b.nextId)
    (hb : ∀ t, b.task? id = some t → Pace b.intervals.poll mounted b.now t opens closes) :
    ∀ t, b'.task? id = some t →
      Pace b.intervals.poll mounted b'.now t (opens ++ Happening.opens id [x])
        (closes ++ Happening.closes id [x]) := by
  intro t' ht'
  cases h.origin htidy ht' with
  | other hx ht =>
    obtain ⟨hopen, hclose⟩ := Happening.opens_closes_of_other hx
    rw [hopen, hclose, List.append_nil, List.append_nil]
    have hp := hb t' ht
    rcases h.now_cases with hnow | ⟨n, _, hn, hsleeps, rfl⟩
    · rw [hnow]
      exact hp
    · exact hp.pass hn (hsleeps t' (Board.task?_mem ht'))
  | mounted hnext => exact absurd hnext (Nat.ne_of_lt hid)
  | @dropped t ht =>
    rw [h.now_eq (by simp)]
    have hopen : Happening.opens id [.dropped id] = [] := rfl
    have hclose : Happening.closes id [.dropped id] = [] := rfl
    rw [hopen, hclose, List.append_nil, List.append_nil]
    exact (hb t ht).congr rfl rfl
  | @moved t m ht hallows =>
    rw [h.now_eq (by simp)]
    exact (hb t ht).move hallows

namespace Run

variable {b b' : Board} {h : List Happening} {id : ViewId} {mounted : Nat}

/-- A run keeps the pace of a view. -/
theorem pace (hrun : Run b h b') (htidy : b.Tidy) (hid : id < b.nextId)
    (hb : ∀ t, b.task? id = some t → Pace b.intervals.poll mounted b.now t [] []) :
    ∀ t, b'.task? id = some t →
      Pace b.intervals.poll mounted b'.now t (Happening.opens id h)
        (Happening.closes id h) := by
  induction hrun with
  | refl => exact hb
  | @step b₁ b₂ h₁ x hrun₁ hstep ih =>
    have hle := hrun₁.nextId_le
    have hintervals := hrun₁.settings_eq.1
    rw [← hintervals] at ih ⊢
    rw [Happening.opens_append, Happening.closes_append]
    exact hstep.pace (hrun₁.tidy htidy) (Nat.lt_of_lt_of_le hid hle) ih

/-- A view that was mounted in the course of a run keeps pace. -/
theorem pace_of_mounted {kind : ViewKind} (hrun : Run b h b') (hb : b.Tidy)
    (hmounted : .mounted id kind mounted ∈ h) {t : ViewTask} (ht : b'.task? id = some t) :
    Pace b.intervals.poll mounted b'.now t (Happening.opens id h) (Happening.closes id h) := by
  obtain ⟨h₁, h₂, b₂, rfl, hothers, hrun₁, hnew, hrun₂⟩ := hrun.exists_mounting hb hmounted
  obtain ⟨hopens, hcloses⟩ := Happening.opens_closes_of_others hothers
  have hfirst : ∀ t, b₂.task? id = some t → Pace b₂.intervals.poll mounted b₂.now t [] [] := by
    intro u hu
    obtain ⟨stamp, htask⟩ := hnew.task
    rw [htask] at hu
    cases hu
    rw [hnew.now_eq]
    exact .of_mounted rfl rfl
  have hp := hrun₂.pace (hrun₁.tidy hb) hnew.lt hfirst t ht
  rw [hrun₁.settings_eq.1] at hp
  rw [← List.singleton_append, Happening.opens_append, Happening.opens_append,
    Happening.closes_append, Happening.closes_append, hopens, hcloses]
  exact hp

end Run

/-! ## Section 4 — no overlap, and no period missed -/

namespace Pace

variable {period mounted now : Nat} {t : ViewTask} {opens closes : List Nat}

/-- No more polls have opened than periods have begun. -/
theorem length_le (hp : Pace period mounted now t opens closes) (hpos : 0 < period) :
    opens.length ≤ (now - mounted) / period + 1 := by
  obtain ⟨k, hk, hle⟩ := hp.onGrid
  have hdue := hp.due_le
  have hmounted := hp.mounted_le
  rcases Nat.eq_zero_or_pos k with rfl | hkpos
  · exact Nat.le_trans hle (Nat.zero_le _)
  · have hsucc : (k - 1) * period + period = k * period := by
      rw [← Nat.succ_mul, Nat.succ_eq_add_one, Nat.sub_add_cancel hkpos]
    have hk' : k - 1 ≤ (now - mounted) / period := (Nat.le_div_iff_mul_le hpos).mpr (by omega)
    omega

/-- When a task sleeps without a fetch on its way, a poll has opened in the period that runs. -/
theorem exists_recent (hp : Pace period mounted now t opens closes) (hpos : 0 < period)
    (hsleeps : t.SleepsUntil (now + 1)) (hnone : t.fetch = none) :
    ∃ n, opens.getLast? = some n ∧ mounted + (now - mounted) / period * period ≤ n := by
  have hawaits := hsleeps.2.1
  rw [ViewTask.AwaitsUntil, hnone] at hawaits
  have hmounted := hp.mounted_le
  obtain ⟨k, hk, _⟩ := hp.onGrid
  cases hlast : opens.getLast? with
  | none =>
    have hdue := hp.first (List.getLast?_eq_none_iff.mp hlast)
    omega
  | some n =>
    refine ⟨n, rfl, ?_⟩
    have hrecent := hp.recent n hlast
    have hbegun : (now - mounted) / period < k := (Nat.div_lt_iff_lt_mul hpos).mpr (by omega)
    have hmul := Nat.mul_le_mul_right period hbegun
    rw [Nat.succ_mul] at hmul
    omega

end Pace

/-- Polls of a view do not overlap, and no period passes without one.  At each instant one fetch
is on its way at most, and each poll but the first opened after the one before had closed; no
more polls have opened than periods have begun, each on the grid of the mounting or at the
instant at which the one before closed; and when all is done at an instant, a fetch is on its
way or the last poll opened in the period that runs. -/
theorem Run.polls_keep_pace {s : Settings} {intervals : Intervals} {wall : Int}
    {firstToast : Uuid} {h : List Happening} {b : Board} {id : ViewId} {kind : ViewKind}
    {mounted : Nat} {t : ViewTask} (hrun : Run (Board.start s intervals wall firstToast) h b)
    (hmounted : .mounted id kind mounted ∈ h) (ht : b.task? id = some t) :
    (Happening.opens id h).length = (Happening.closes id h).length +
      (if t.fetch.isSome then 1 else 0) ∧
      (∀ i n, (Happening.opens id h)[i + 1]? = some n →
        ∃ c, (Happening.closes id h)[i]? = some c ∧ c ≤ n) ∧
      (Happening.opens id h).length ≤ (b.now - mounted) / intervals.poll + 1 ∧
      (∀ i n, (Happening.opens id h)[i]? = some n →
        (∃ k, n = mounted + k * intervals.poll) ∨ ∃ j,
        i = j + 1 ∧ (Happening.closes id h)[j]? = some n) ∧
      (b.Quiet → t.fetch.isSome = true ∨ ∃ n, (Happening.opens id h).getLast? = some n ∧
        mounted + (b.now - mounted) / intervals.poll * intervals.poll ≤ n) := by
  have hp : Pace intervals.poll mounted b.now t _ _ :=
    hrun.pace_of_mounted (Board.tidy_start ..) hmounted ht
  refine ⟨hp.count, hp.apart, hp.length_le intervals.poll_pos, hp.starts, fun hquiet => ?_⟩
  cases hfetch : t.fetch with
  | some f => exact .inl rfl
  | none =>
    exact .inr (hp.exists_recent intervals.poll_pos (hquiet t (Board.task?_mem ht)) hfetch)

/-- An alarm that takes longer to answer than a period: the second poll opens when the
first one closes. -/
theorem Run.polls_keep_pace_slowly : ∃ (h : List Happening) (b : Board) (t : ViewTask),
    Run (Board.start {} ⟨200, 1000, by decide, by decide⟩ 0 ⟨0⟩) h b ∧ .mounted 1 .alarm 0 ∈ h ∧
      b.task? 1 = some t ∧ Happening.opens 1 h = [0, 300] ∧ Happening.closes 1 h = [300] ∧
      (Happening.opens 1 h).length ≤ (b.now - 0) / 200 + 1 := by
  let script : Script := { delays := [(.alarm, 300)] }
  let b₀ := Board.start {} ⟨200, 1000, by decide, by decide⟩ 0 ⟨0⟩
  let b₁ := ((b₀.attend (.script script)).hold .alarm).2
  let b₂ := { b₁.move 1 .poll with now := 300 }
  let b₃ := b₂.move 1 .answers
  let h : List Happening := [.attended (.script script) 0, .mounted 1 .alarm 0,
    b₁.moving 1 .poll, .passed 300, b₂.moving 1 .answers, b₃.moving 1 .poll]
  have hopen : Step b₁ (b₁.moving 1 .poll) (b₁.move 1 .poll) := .of_canMove (by decide +kernel)
  have hsleeps : (b₁.move 1 .poll).SleepsUntil 300 := by decide +kernel
  have hclose : Step b₂ (b₂.moving 1 .answers) b₃ := .of_canMove (by decide +kernel)
  have hreopen : Step b₃ (b₃.moving 1 .poll) (b₃.move 1 .poll) :=
    .of_canMove (by decide +kernel)
  have hrun : Run b₀ h (b₃.move 1 .poll) :=
    .cons (.attend b₀ _) <| .cons (.hold _ .alarm) <| .cons hopen <|
      .cons (.pass (by decide +kernel) hsleeps) <|
      .cons hclose <| .single hreopen
  have hmounted : .mounted 1 .alarm 0 ∈ h := by simp [h]
  have hsome : ((b₃.move 1 .poll).task? 1).isSome = true := by decide +kernel
  obtain ⟨t, ht⟩ := Option.isSome_iff_exists.mp hsome
  have hopens : Happening.opens 1 h = [0, 300] := by decide +kernel
  have hcloses : Happening.closes 1 h = [300] := by decide +kernel
  exact ⟨h, _, t, hrun, hmounted, ht, hopens, hcloses,
    (Run.polls_keep_pace hrun hmounted ht).2.2.1⟩

end HouseBoard
