/-
HouseBoard.Proofs.Chronicle — the books and the slots, told by what happened.

A run says by its happenings alone what it leaves behind: the books are those of the start with
all entries made in order, and a slot is that of the start after the happenings of its own view.
Neither is so once a task could not go on, which does not happen while all messages expire
within the calendar.
-/
import HouseBoard.Proofs.Step

namespace HouseBoard

/-! ## Section 1 — what a happening leaves behind -/

/-- The books after an errand at an instant of the wall clock. -/
def Books.attend (wall : Int) (k : Books) : Errand → Books
  | .forget => { k with log := {} }
  | .call c => { k with log := k.log.start c }
  | .reply c => { k with log := k.log.complete c }
  | .report e =>
    match k.notifier.reportError wall e with
    | .ok (_, notifier) => { k with notifier }
    | .error .overflow => k
  | .purge => { k with notifier := k.notifier.expire wall }
  | .dismiss id => { k with notifier := (k.notifier.dismiss id).2 }
  | _ => k

namespace Happening

/-- The books after a happening. -/
def post (k : Books) : Happening → Books
  | .moved _ _ w es _ => es.foldl (Books.post w.wall) k
  | .attended e wall => k.attend wall e
  | _ => k

/-- The slot of a view after a happening that concerns the view. -/
def touch (s : Option Slot) : Happening → Option Slot
  | .mounted _ kind _ => some { kind }
  | .left _ => none
  | .moved _ _ w es _ => s.map fun slot => es.foldl (Slot.take w.wall) slot
  | _ => s

/-- Whether a task could not go on. -/
def isFall : Happening → Bool
  | .fell _ _ => true
  | _ => false

/-- A message that is made at a happening expires within the calendar. -/
def InCalendar (lifetime : Int) : Happening → Prop
  | .moved _ _ w _ _ => ∃ expiry, Timestamp.after w.wall lifetime = .ok expiry
  | .fell _ w => ∃ expiry, Timestamp.after w.wall lifetime = .ok expiry
  | _ => True

instance (wall lifetime : Int) :
    Decidable (∃ expiry, Timestamp.after wall lifetime = .ok expiry) :=
  match Timestamp.after wall lifetime with
  | .ok expiry => .isTrue ⟨expiry, rfl⟩
  | .error _ => .isFalse fun ⟨_, h⟩ => nomatch h

instance (lifetime : Int) (x : Happening) : Decidable (x.InCalendar lifetime) :=
  match x with
  | .moved _ _ w _ _ =>
    inferInstanceAs (Decidable (∃ expiry, Timestamp.after w.wall lifetime = .ok expiry))
  | .fell _ w =>
    inferInstanceAs (Decidable (∃ expiry, Timestamp.after w.wall lifetime = .ok expiry))
  | .mounted _ _ _ | .dropped _ | .left _ | .attended _ _ | .passed _ => .isTrue trivial

end Happening

/-! ## Section 2 — steps -/

namespace Step

variable {b b' : Board} {x : Happening}

theorem books_attend (b : Board) (e : Errand) :
    (b.attend e).books = b.books.attend b.wall e := by
  cases e with
  | report e =>
    simp only [Board.attend, Board.report, Books.attend, Board.books]
    cases b.notifier.reportError b.wall e with
    | ok r => rfl
    | error o => rfl
  | _ => rfl

/-- A step makes the entries that its happening tells of. -/
theorem books_eq (h : Step b x b') (hx : x.isFall = false) : b'.books = x.post b.books := by
  cases x with
  | mounted id kind n =>
    cases h with
    | hold kind => rfl
    | ensure hkind => rw [Board.ensureMounted_of_none hkind]; rfl
  | dropped id => exact h.of_dropped.2.2.2
  | left id => exact h.of_left.2.2.2.2
  | moved id m w es ended =>
    obtain ⟨_, _, _, _, rfl, _, _, _, _, hbooks⟩ := h.of_moved
    exact hbooks
  | fell id w => cases hx
  | attended e wall =>
    cases h
    exact books_attend b e
  | passed n =>
    obtain ⟨_, _, rfl⟩ := h.of_passed
    rfl

/-- A step changes the slot of its view as its happening tells. -/
theorem slot_eq (h : Step b x b') (hx : x.isFall = false) {id : ViewId}
    (hid : x.isOf id = true) : b'.store.get? id = x.touch (b.store.get? id) := by
  simp only [Happening.isOf, beq_iff_eq] at hid
  cases x with
  | mounted j kind n =>
    cases hid
    exact h.of_mounted.2.2.2.1
  | dropped j =>
    cases hid
    rw [h.of_dropped.2.2.1]
    rfl
  | left j =>
    cases hid
    exact h.of_left.2.2.1
  | moved j m w es ended =>
    cases hid
    obtain ⟨_, _, _, _, rfl, _, _, _, hslot, _⟩ := h.of_moved
    exact hslot
  | fell j w => cases hx
  | attended e wall => cases hid
  | passed n => cases hid

/-- For how long messages are shown does not change. -/
theorem lifetime_eq (h : Step b x b') : b'.notifier.lifetime = b.notifier.lifetime := by
  cases h with
  | attend e =>
    cases e with
    | report e =>
      simp only [Board.attend, Board.report]
      split
      · exact Notifier.reportError_lifetime ‹_›
      · rfl
    | _ => rfl
  | hold kind => rfl
  | ensure hkind => rw [Board.ensureMounted_of_none hkind]; rfl
  | release hid => rw [Board.release_of_mem hid]; rfl
  | abandon hkind => rfl
  | leave ht hcancelled => rfl
  | @move _ t m ht hcancelled hm hperforms =>
    rw [Board.move_of_performs ht hperforms]
    exact Books.foldl_post_lifetime b.wall (b.turn t m).2.effects b.books
  | fall ht hcancelled hm hperforms =>
    obtain ⟨es, _, hes⟩ := Board.move_of_not_performs ht hperforms
    rw [hes]
    exact Books.foldl_post_lifetime b.wall es b.books
  | pass hn hsleeps => rfl

end Step

/-! ## Section 3 — runs -/

/-- For how long messages are shown is set at the start. -/
theorem Board.lifetime_start (s : Settings) (intervals : Intervals) (wall : Int)
    (firstToast : Uuid) :
    (start s intervals wall firstToast).notifier.lifetime =
      Timestamp.signedSeconds s.notifications.durationSecs := by
  rw [start, Notifier.start]

namespace Run

variable {b b' : Board} {h : List Happening}

theorem lifetime_eq (hrun : Run b h b') : b'.notifier.lifetime = b.notifier.lifetime :=
  hrun.preserves (P := fun b' => b'.notifier.lifetime = b.notifier.lifetime)
    (fun _ _ _ hb hstep => hstep.lifetime_eq.trans hb) rfl

/-- While messages expire within the calendar every task can go on. -/
theorem isFall_eq_false (hrun : Run b h b') (hcal : ∀ x ∈ h, x.InCalendar b.notifier.lifetime) :
    (∀ x ∈ h, x.isFall = false) ∧ b'.notifier.lifetime = b.notifier.lifetime := by
  refine ⟨?_, hrun.lifetime_eq⟩
  induction hrun with
  | refl => simp
  | @step b₁ b₂ h₁ x hrun₁ hstep ih =>
    have hno := ih fun y hy => hcal y (List.mem_append_left _ hy)
    intro y hy
    rcases List.mem_append.mp hy with hy₁ | hy₁
    · exact hno y hy₁
    · have hlasts := hcal y hy
      cases List.mem_singleton.mp hy₁
      cases x with
      | fell id w =>
        obtain ⟨rfl, _, hnot, _⟩ := hstep.of_fell
        rw [Notifier.Lasts, hrun₁.lifetime_eq] at hnot
        exact absurd hlasts hnot
      | _ => rfl

/-- The books are those of the start with all entries made in order. -/
theorem books_eq (hrun : Run b h b') (hno : ∀ x ∈ h, x.isFall = false) :
    b'.books = h.foldl Happening.post b.books := by
  induction hrun with
  | refl => rfl
  | step _ hstep ih =>
    rw [List.foldl_append, ← ih fun y hy => hno y (List.mem_append_left _ hy)]
    exact hstep.books_eq (hno _ (by simp))

/-- A slot is that of the start after the happenings of its own view. -/
theorem slot_eq (hrun : Run b h b') (hno : ∀ x ∈ h, x.isFall = false) (id : ViewId) :
    b'.store.get? id = (h.filter (·.isOf id)).foldl Happening.touch (b.store.get? id) := by
  induction hrun with
  | refl => rfl
  | @step b₁ b₂ h₁ x _ hstep ih =>
    have ih := ih fun y hy => hno y (List.mem_append_left _ hy)
    rw [List.filter_append, List.foldl_append, ← ih]
    cases hx : x.isOf id with
    | true =>
      rw [List.filter_cons_of_pos hx]
      exact hstep.slot_eq (hno _ (by simp)) hx
    | false =>
      rw [List.filter_cons_of_neg (ne_true_of_eq_false hx)]
      exact (hstep.frame hx).2.1

end Run

end HouseBoard
