/-
HouseBoard.Proofs.Departure — what is left of a view that was given up.

A view that was given up does nothing any more: the only thing that can still happen to it is
that its task ends, and then its slot is gone for good.  Whatever else happens in the meantime
happens as if the view had never been there.
-/
import HouseBoard.Proofs.Tidy

namespace HouseBoard

/-! ## Section 1 — views that were given up -/

/-- A view was mounted, nobody holds it, and its task is to end. -/
structure Board.GivenUp (b : Board) (id : ViewId) : Prop where
  lt : id < b.nextId
  notMem : id ∉ b.handles
  cancelled : ∀ t, b.task? id = some t → t.cancelled = true

namespace Step

variable {b b' : Board} {x : Happening} {id : ViewId}

/-- Giving a view up makes it one that was given up. -/
theorem givenUp_of_dropped (h : Step b (.dropped id) b') (hb : b.Tidy) : b'.GivenUp id where
  lt := by
    have hlt := hb.handles_lt id h.of_dropped.1
    exact Nat.lt_of_lt_of_le hlt h.nextId_le
  notMem := h.not_mem_handles_of_dropped hb
  cancelled := by
    intro t ht
    rw [h.of_dropped.2.1] at ht
    obtain ⟨u, _, rfl⟩ := Option.map_eq_some_iff.mp ht
    rfl

/-- All that can happen to a view that was given up is that its task ends. -/
theorem eq_left_of_givenUp (h : Step b x b') (htidy : b.Tidy) (hb : b.GivenUp id)
    (hx : x.isOf id = true) : x = .left id := by
  have hawake {t : ViewTask} (ht : b.task? id = some t) : t.cancelled ≠ false := by
    rw [hb.cancelled t ht]
    decide
  cases h.fate htidy id with
  | other hother =>
    rw [hx] at hother
    cases hother
  | mounted hid => exact absurd hid (Nat.ne_of_lt hb.lt)
  | dropped hheld => exact absurd hheld hb.notMem
  | left => rfl
  | moved ht hcancelled => exact absurd hcancelled (hawake ht)
  | fell ht hcancelled => exact absurd hcancelled (hawake ht)

/-- A view that was given up stays so. -/
theorem givenUp (h : Step b x b') (htidy : b.Tidy) (hb : b.GivenUp id) : b'.GivenUp id := by
  have hlt := Nat.lt_of_lt_of_le hb.lt h.nextId_le
  cases hx : x.isOf id with
  | true =>
    cases h.eq_left_of_givenUp htidy hb hx
    obtain ⟨_, htask, _, hhandles, _⟩ := h.of_left
    refine ⟨hlt, ?_, ?_⟩
    · rw [hhandles]
      exact hb.notMem
    · intro t ht
      rw [htask] at ht
      cases ht
  | false =>
    obtain ⟨htask, _, hhandles⟩ := h.frame hx
    refine ⟨hlt, fun hmem => hb.notMem (hhandles hmem), ?_⟩
    rw [htask]
    exact hb.cancelled

end Step

/-- When all is done at an instant, nothing is left of a view that was given up. -/
theorem Board.GivenUp.get?_eq_none {b : Board} {id : ViewId} (hb : b.GivenUp id)
    (hhoused : b.Housed) (hquiet : b.Quiet) : b.store.get? id = none := by
  cases hslot : b.store.get? id with
  | none => rfl
  | some slot =>
    obtain ⟨t, ht⟩ := hhoused id slot hslot
    have hawake := (hquiet t (Board.task?_mem ht)).1
    rw [hb.cancelled t ht] at hawake
    cases hawake

/-! ## Section 2 — runs -/

/-- What is gone stays gone when tasks end. -/
theorem foldl_touch_of_left {h : List Happening} {id : ViewId}
    (honly : ∀ x ∈ h, x.isOf id = true → x = .left id) :
    (h.filter fun x => x.isOf id).foldl Happening.touch none = none := by
  induction h with
  | nil => rfl
  | cons x xs ih =>
    have ih := ih fun y hy => honly y (List.mem_cons_of_mem _ hy)
    cases hx : x.isOf id with
    | true =>
      cases honly x List.mem_cons_self hx
      rw [List.filter_cons_of_pos hx]
      exact ih
    | false =>
      rw [List.filter_cons_of_neg (ne_true_of_eq_false hx)]
      exact ih

/-- A task that ends makes no entry in the books. -/
theorem foldl_post_of_left {h : List Happening} {id : ViewId}
    (honly : ∀ x ∈ h, x.isOf id = true → x = .left id) (k : Books) :
    h.foldl Happening.post k = (h.filter fun x => !x.isOf id).foldl Happening.post k := by
  induction h generalizing k with
  | nil => rfl
  | cons x xs ih =>
    have ih := ih fun y hy => honly y (List.mem_cons_of_mem _ hy)
    cases hx : x.isOf id with
    | true =>
      cases honly x List.mem_cons_self hx
      rw [List.filter_cons_of_neg (by simp [hx])]
      exact ih k
    | false =>
      rw [List.filter_cons_of_pos (by simp [hx])]
      exact ih (x.post k)

namespace Run

variable {b b' : Board} {h : List Happening} {id : ViewId}

/-- In a run with a view that was given up, the only thing that happens to it is
that its task ends. -/
theorem givenUp (hrun : Run b h b') (htidy : b.Tidy) (hb : b.GivenUp id) :
    b'.GivenUp id ∧ ∀ x ∈ h, x.isOf id = true → x = .left id := by
  induction hrun with
  | refl => exact ⟨hb, by simp⟩
  | step hrun₁ hstep ih =>
    have htidy₁ := hrun₁.tidy htidy
    obtain ⟨hb₁, honly⟩ := ih
    refine ⟨hstep.givenUp htidy₁ hb₁, ?_⟩
    intro y hy hyid
    rcases List.mem_append.mp hy with hy | hy
    · exact honly y hy hyid
    · cases List.mem_singleton.mp hy
      exact hstep.eq_left_of_givenUp htidy₁ hb₁ hyid

/-- A view that was given up in the course of a run is one that was given up at its end. -/
theorem givenUp_of_dropped (hrun : Run b h b') (hb : b.Tidy) (hdropped : .dropped id ∈ h) :
    b'.GivenUp id := by
  obtain ⟨h₁, h₂, b₁, b₂, rfl, hrun₁, hstep, hrun₂⟩ := hrun.exists_step_of_mem hdropped
  have htidy := hrun₁.tidy hb
  exact (hrun₂.givenUp (hstep.tidy htidy) (hstep.givenUp_of_dropped htidy)).1

end Run

/-! ## Section 3 — what is left -/

/-- A view that was given up is gone once all is done at an instant, and for good; until then
nothing happens to it but that its task ends.  The books are those that the happenings of the
other views make, and each other view has the slot that its own happenings make. -/
theorem Run.departed {s : Settings} {intervals : Intervals} {wall : Int} {firstToast : Uuid}
    {h h' : List Happening} {b b' : Board} {id : ViewId}
    (hrun : Run (Board.start s intervals wall firstToast) h b) (hdropped : .dropped id ∈ h)
    (hrun' : Run b h' b')
    (hcal : ∀ x ∈ h ++ h', x.InCalendar
      (Timestamp.signedSeconds s.notifications.durationSecs)) :
    (b.Quiet → b.store.get? id = none) ∧ (b.store.get? id = none → b'.store.get? id = none) ∧
      (∀ x ∈ h', x.isOf id = true → x = .left id) ∧
      b'.books = (h'.filter fun x => !x.isOf id).foldl Happening.post b.books ∧
      ∀ j, j ≠ id → b'.store.get? j = (h'.filter fun x => x.isOf j).foldl Happening.touch
        (b.store.get? j) := by
  rw [← Board.lifetime_start s intervals wall firstToast] at hcal
  obtain ⟨hno, hlife⟩ := hrun.isFall_eq_false fun x hx => hcal x (List.mem_append_left _ hx)
  rw [← hlife] at hcal
  have hno' := (hrun'.isFall_eq_false fun x hx => hcal x (List.mem_append_right _ hx)).1
  have htidy := Board.tidy_start s intervals wall firstToast
  have hgiven := hrun.givenUp_of_dropped htidy hdropped
  obtain ⟨hgiven', honly⟩ := hrun'.givenUp (hrun.tidy htidy) hgiven
  have hslots := hrun'.slot_eq hno'
  have hhoused := hrun.housed htidy hno (Board.housed_start s intervals wall firstToast)
  refine ⟨hgiven.get?_eq_none hhoused, ?_, honly, ?_, fun j _ => hslots j⟩
  · intro hgone
    rw [hslots id, hgone]
    exact foldl_touch_of_left honly
  · rw [hrun'.books_eq hno']
    exact foldl_post_of_left honly b.books

/-- A view of the alarm is given up while its call is on its way; another one is mounted before
its task has ended. -/
theorem Run.departed_alarm : ∃ (h h' : List Happening) (b b' : Board),
    Run (Board.start {} ⟨200, 50, by decide, by decide⟩ 0 ⟨0⟩) h b ∧ .dropped 1 ∈ h ∧
      (b.task? 1).any (·.fetch.isSome) = true ∧ Run b h' b' ∧ .mounted 2 .alarm 0 ∈ h' ∧
      .left 1 ∈ h' ∧
      (b.store.get? 1).isSome = true ∧ b'.store.get? 1 = none ∧
      b'.store.get? 2 = some { kind := .alarm } := by
  let script : Script := { delays := [(.alarm, 100)] }
  let b₀ := Board.start {} ⟨200, 50, by decide, by decide⟩ 0 ⟨0⟩
  let b₁ := ((b₀.attend (.script script)).hold .alarm).2
  let b₂ := ((b₁.move 1 .poll).release 1).2
  let b₃ := (b₂.hold .alarm).2.finish 1
  let h : List Happening := [.attended (.script script) 0, .mounted 1 .alarm 0,
    .moved 1 .poll ⟨0, 0, script⟩ [.start .alarm] false, .dropped 1]
  let h' : List Happening := [.mounted 2 .alarm 0, .left 1]
  have hpoll : Step b₁ (.moved 1 .poll ⟨0, 0, script⟩ [.start .alarm] false)
      (b₁.move 1 .poll) :=
    .move (b := b₁) (t := { id := 1, kind := .alarm, poll := ⟨0, some 0⟩, tick := ⟨50, none⟩ })
      rfl rfl rfl rfl
  have hrun : Run b₀ h b₂ :=
    .cons (.attend b₀ _) <| .cons (.hold _ .alarm) <| .cons hpoll <|
      .single (.release (by decide))
  have hrun' : Run b₂ h' b₃ := .cons (.hold _ _) <| .single (.leave rfl rfl)
  have hdropped : .dropped 1 ∈ h := by simp [h]
  have hcal : ∀ x ∈ h ++ h', x.InCalendar
      (Timestamp.signedSeconds ({} : Settings).notifications.durationSecs) := by
    intro x hx
    simp only [h, h', List.cons_append, List.nil_append, List.mem_cons, List.not_mem_nil,
      or_false] at hx
    rcases hx with rfl | rfl | rfl | rfl | rfl | rfl
    · trivial
    · trivial
    · exact ⟨_, rfl⟩
    · trivial
    · trivial
    · trivial
  obtain ⟨_, _, _, _, hothers⟩ := Run.departed hrun hdropped hrun' hcal
  exact ⟨h, h', b₂, b₃, hrun, hdropped, rfl, hrun', by simp [h'], by simp [h'], rfl, rfl,
    hothers 2 (by decide)⟩

end HouseBoard
