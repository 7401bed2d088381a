/-
HouseBoard.Proofs.Accounts — the counts of polls, the last failure and the messages.

Health counts the calls of polls by how they were taken up, keeps the words of the last failure,
and messages tell of failures.  Sections 1 and 2 read all of this off the happenings of a run:
the counts are those of settlements, and the messages those of the failures of polls and
commands, in order.  Section 3 says how many settlements there are in one cycle of a view,
whether it ends or is given up.  The main statement puts this together with the log of calls.
-/
import HouseBoard.Proofs.Cycle
import HouseBoard.Proofs.Departure
import HouseBoard.Proofs.Traffic

namespace HouseBoard

/-! ## Section 1 — messages -/

/-- What a message says, beside its identifier and its times. -/
def Toast.content (t : Toast) : ToastLevel × String × Option String :=
  (t.level, t.message, t.description)

/-- What the message about a failure says; there is none about a failure of an unknown kind. -/
def RpcError.notice? (e : RpcError) : Option (ToastLevel × String × Option String) :=
  if e.code = .unknown then none else some (.error, e.code.name, some e.message)

/-- The identifier that is given out next is another one. -/
theorem Uuid.next_ne (u : Uuid) : (⟨(u.number + 1) % Uuid.count⟩ : Uuid) ≠ u := by
  intro heq
  have hnumber : (u.number + 1) % Uuid.count = u.number := congrArg Uuid.number heq
  have hcount : 1 < Uuid.count := by decide
  have hmod := Nat.mod_lt (u.number + 1) (Nat.lt_trans Nat.zero_lt_one hcount)
  rcases Nat.lt_or_ge (u.number + 1) Uuid.count with hlt | hge
  · rw [Nat.mod_eq_of_lt hlt] at hnumber
    omega
  · have hlast : u.number + 1 = Uuid.count := Nat.le_antisymm (hnumber ▸ hmod) hge
    rw [hlast, Nat.mod_self] at hnumber
    omega

namespace Notifier

/-- The message that was added between two states of a notifier: an identifier was given out,
and the message is the last one. -/
def added (n n' : Notifier) : List Toast :=
  if n'.nextId = n.nextId then [] else n'.toasts.getLast?.toList

/-- A notifier comes to another state by messages about failures, and at most loses others. -/
structure Takes (n n' : Notifier) (es : List RpcError) : Prop where
  content : (n.added n').map Toast.content = es.filterMap RpcError.notice?
  kept : n'.toasts.Sublist (n.toasts ++ n.added n')

theorem takes_nil {n n' : Notifier} (hid : n'.nextId = n.nextId)
    (hkept : n'.toasts.Sublist n.toasts) : n.Takes n' [] := by
  have hadded : n.added n' = [] := if_pos hid
  refine ⟨by rw [hadded]; rfl, ?_⟩
  rw [hadded, List.append_nil]
  exact hkept

/-- A failure that is reported is told in one message, unless it is of an unknown kind. -/
theorem takes_report {n n' : Notifier} {wall : Int} {e : RpcError} {shown : Bool}
    (h : n.reportError wall e = .ok (shown, n')) : n.Takes n' [e] := by
  obtain ⟨hcode, -, rfl⟩ | ⟨hcode, -, rfl⟩ := reportError_cases h
  · obtain ⟨hcontent, hkept⟩ := takes_nil (n := n') rfl (List.Sublist.refl _)
    refine ⟨?_, hkept⟩
    rw [hcontent]
    simp [RpcError.notice?, hcode]
  · have hne := n.nextId.next_ne
    constructor
    · simp [added, enqueue, toast, hne, Toast.content, RpcError.notice?, hcode]
    · simp only [added, enqueue, if_neg hne, List.getLast?_concat]
      exact (List.drop_sublist _ _).append (List.Sublist.refl _)

end Notifier

/-- The failure that an effect tells of. -/
def Effect.failure? : Effect → Option RpcError
  | .fail _ e => some e
  | _ => none

namespace Books

/-- The messages that effects add to the books. -/
def pushes (wall : Int) : Books → List Effect → List Toast
  | _, [] => []
  | k, e :: es => k.notifier.added (k.post wall e).notifier ++ pushes wall (k.post wall e) es

theorem post_takes {wall : Int} {k : Books} {e : Effect}
    (hlasts : e.isReported = true → k.notifier.Lasts wall) :
    k.notifier.Takes (k.post wall e).notifier e.failure?.toList := by
  cases e with
  | fail c e =>
    simp only [post, Effect.failure?, Option.toList_some]
    cases hreport : k.notifier.reportError wall e with
    | ok r => exact Notifier.takes_report hreport
    | error o =>
      cases o
      obtain ⟨hcode, hnot⟩ := Notifier.reportError_eq_error_iff.mp hreport
      exact absurd (hlasts (Effect.isReported_iff.mpr ⟨c, e, rfl, hcode⟩)) hnot
  | _ => exact Notifier.takes_nil rfl (List.Sublist.refl _)

/-- Effects add one message for each failure that is told, and the messages that are left
are among those. -/
theorem pushes_content {wall : Int} {k : Books} {es : List Effect}
    (hlasts : ∀ e ∈ es, e.isReported = true → k.notifier.Lasts wall) :
    (pushes wall k es).map Toast.content =
      (es.filterMap Effect.failure?).filterMap RpcError.notice? ∧
      (es.foldl (Books.post wall) k).notifier.toasts.Sublist
        (k.notifier.toasts ++ pushes wall k es) := by
  induction es generalizing k with
  | nil => simp [pushes]
  | cons e es ih =>
    obtain ⟨hfirst, hrest⟩ := List.forall_mem_cons.mp hlasts
    obtain ⟨hcontent, hkept⟩ := post_takes hfirst
    have hlasts' : ∀ e' ∈ es, e'.isReported = true → (k.post wall e).notifier.Lasts wall := by
      rwa [Notifier.Lasts, post_lifetime]
    obtain ⟨hcontent', hkept'⟩ := ih hlasts'
    constructor
    · rw [pushes, List.map_append, hcontent, hcontent', List.filterMap_cons]
      cases e.failure? with
      | none => rfl
      | some e => rw [← List.filterMap_append]; rfl
    · rw [pushes, List.foldl_cons, ← List.append_assoc]
      exact hkept'.trans (hkept.append (List.Sublist.refl _))

theorem attend_lifetime (wall : Int) (k : Books) (e : Errand) :
    (k.attend wall e).notifier.lifetime = k.notifier.lifetime := by
  cases e with
  | report e =>
    simp only [attend]
    split
    · exact Notifier.reportError_lifetime ‹_›
    · rfl
  | _ => rfl

end Books

namespace Happening

/-- The messages that a happening adds to the books. -/
def pushesOf (k : Books) : Happening → List Toast
  | .moved _ _ w es _ => Books.pushes w.wall k es
  | .attended e wall => k.notifier.added (k.attend wall e).notifier
  | _ => []

/-- The messages that were ever added in the course of a run. -/
def pushes : Books → List Happening → List Toast
  | _, [] => []
  | k, x :: h => x.pushesOf k ++ pushes (x.post k) h

/-- The failures of polls and commands at a happening. -/
def failuresOf : Happening → List RpcError
  | .moved _ _ _ es _ => es.filterMap Effect.failure?
  | .attended (.report e) _ => [e]
  | _ => []

/-- The failures of polls and commands in the course of a run, in the order in which
they were taken up. -/
def failures (h : List Happening) : List RpcError := h.flatMap failuresOf

/-- A message that is made at a happening expires within the calendar, be it of a poll
or of a command. -/
def Lasting (lifetime : Int) : Happening → Prop
  | .attended (.report _) wall => ∃ expiry, Timestamp.after wall lifetime = .ok expiry
  | x => x.InCalendar lifetime

instance (lifetime : Int) (x : Happening) : Decidable (x.Lasting lifetime) :=
  match x with
  | .attended (.report _) wall =>
    inferInstanceAs (Decidable (∃ expiry, Timestamp.after wall lifetime = .ok expiry))
  | .moved id m w es ended =>
    inferInstanceAs (Decidable ((moved id m w es ended).InCalendar lifetime))
  | .fell id w => inferInstanceAs (Decidable ((fell id w).InCalendar lifetime))
  | .attended (.script _) _ | .attended .forget _ | .attended (.call _) _
  | .attended (.reply _) _ => .isTrue trivial
  | .attended .purge _ | .attended (.dismiss _) _ | .attended (.debug _) _
  | .attended (.clock _) _ => .isTrue trivial
  | .mounted _ _ _ | .dropped _ | .left _ | .passed _ => .isTrue trivial

theorem Lasting.inCalendar {lifetime : Int} {x : Happening} (h : x.Lasting lifetime) :
    x.InCalendar lifetime := by
  cases x with
  | attended e wall => trivial
  | _ => exact h

theorem post_lifetime (k : Books) (x : Happening) :
    (x.post k).notifier.lifetime = k.notifier.lifetime := by
  cases x with
  | moved id m w es ended => exact Books.foldl_post_lifetime w.wall es k
  | attended e wall => exact k.attend_lifetime wall e
  | _ => rfl

/-- A happening adds one message for each failure that is told. -/
theorem pushesOf_content {k : Books} {x : Happening} (hx : x.Lasting k.notifier.lifetime) :
    (x.pushesOf k).map Toast.content = x.failuresOf.filterMap RpcError.notice? ∧
      (x.post k).notifier.toasts.Sublist (k.notifier.toasts ++ x.pushesOf k) := by
  cases x with
  | moved id m w es ended => exact Books.pushes_content fun _ _ _ => hx
  | attended e wall =>
    have htakes : k.notifier.Takes (k.attend wall e).notifier (attended e wall).failuresOf := by
      cases e with
      | report e =>
        simp only [Books.attend, failuresOf]
        cases hreport : k.notifier.reportError wall e with
        | ok r => exact Notifier.takes_report hreport
        | error o =>
          cases o
          exact absurd hx (Notifier.reportError_eq_error_iff.mp hreport).2
      | purge => exact Notifier.takes_nil rfl List.filter_sublist
      | dismiss id => exact Notifier.takes_nil rfl List.filter_sublist
      | _ => exact Notifier.takes_nil rfl (List.Sublist.refl _)
    exact ⟨htakes.content, htakes.kept⟩
  | _ => exact ⟨rfl, by simp [post, pushesOf]⟩

/-- The messages of a run are those about its failures, and those that are left are
among them. -/
theorem pushes_content {k : Books} {h : List Happening}
    (hlasting : ∀ x ∈ h, x.Lasting k.notifier.lifetime) :
    (pushes k h).map Toast.content = (failures h).filterMap RpcError.notice? ∧
      (h.foldl post k).notifier.toasts.Sublist (k.notifier.toasts ++ pushes k h) := by
  induction h generalizing k with
  | nil => simp [pushes, failures]
  | cons x h ih =>
    obtain ⟨hx, hrest⟩ := List.forall_mem_cons.mp hlasting
    obtain ⟨hcontent, hkept⟩ := pushesOf_content hx
    obtain ⟨hcontent', hkept'⟩ := ih (k := x.post k) (by rwa [post_lifetime])
    constructor
    · rw [pushes, List.map_append, hcontent, hcontent', failures, failures, List.flatMap_cons,
        List.filterMap_append]
    · rw [pushes, List.foldl_cons, ← List.append_assoc]
      exact hkept'.trans (hkept.append (List.Sublist.refl _))

end Happening

/-! ## Section 2 — counts -/

/-- Whether an effect is that a poll succeeded. -/
def Effect.isSuccess : Effect → Bool
  | .succeed _ => true
  | _ => false

/-- The books have the counts of some settlements in addition to those of other books, and the
words of the last failure. -/
structure Books.Counts (k k' : Books) (es : List Effect) : Prop where
  succeeded : k'.succeeded = k.succeeded + es.countP Effect.isSuccess
  failed : k'.failed = k.failed + (es.filterMap Effect.failure?).length
  lastError : k'.lastError = ((es.filterMap Effect.failure?).getLast?.map RpcError.text).or
    k.lastError

namespace Books.Counts

theorem trans {k k' k'' : Books} {es es' : List Effect} (h : k.Counts k' es)
    (h' : k'.Counts k'' es') :
    k.Counts k'' (es ++ es') where
  succeeded := by rw [h'.succeeded, h.succeeded, List.countP_append, Nat.add_assoc]
  failed := by
    rw [h'.failed, h.failed, List.filterMap_append, List.length_append, Nat.add_assoc]
  lastError := by
    rw [h'.lastError, h.lastError, List.filterMap_append,
      List.getLast?_append, ← Option.or_assoc]
    cases (es'.filterMap Effect.failure?).getLast? <;> rfl

/-- Errands do not count. -/
theorem of_same {k k' : Books} (hsucceeded : k'.succeeded = k.succeeded)
    (hfailed : k'.failed = k.failed) (hlast : k'.lastError = k.lastError) : k.Counts k' [] :=
      ⟨hsucceeded, hfailed, hlast⟩

theorem post (wall : Int) (k : Books) (e : Effect) : k.Counts (k.post wall e) [e] := by
  cases e with
  | _ => exact ⟨rfl, rfl, rfl⟩

theorem foldl_post (wall : Int) (es : List Effect) (k : Books) :
    k.Counts (es.foldl (Books.post wall) k) es := by
  induction es generalizing k with
  | nil => exact of_same rfl rfl rfl
  | cons e es ih => exact (post wall k e).trans (ih (k.post wall e))

theorem attend (wall : Int) (k : Books) (e : Errand) : k.Counts (k.attend wall e) [] := by
  cases e with
  | report e =>
    simp only [Books.attend]
    split
    · exact of_same rfl rfl rfl
    · exact of_same rfl rfl rfl
  | _ => exact of_same rfl rfl rfl

end Books.Counts

/-! ## Section 3 — settlements of one cycle -/

namespace Poll

/-- The answers that are seen to be taken up are those that the task of the view takes up. -/
theorem foldl_watch_taken (id : ViewId) (p : Poll) (h : List Happening) :
    (h.foldl (Poll.watch id) p).taken = p.taken ++ settlements (Happening.effects id h) := by
  induction h generalizing p with
  | nil => simp [Happening.effects]
  | cons x xs ih =>
    rw [List.foldl_cons, ih, ← List.singleton_append, Happening.effects_append,
      settlements_append, ← List.append_assoc]
    congr 1
    cases x with
    | moved j m w es ended =>
      by_cases hj : j = id
      · subst hj
        simp
      · simp [watch, hj, Happening.effects, Happening.effectsOf]
    | _ => simp [watch, Happening.effects, Happening.effectsOf]

end Poll

theorem Board.poll_taken (b : Board) (id : ViewId) (h : List Happening) :
    (b.poll id h).taken = settlements (Happening.effects id h) := by
  rw [poll, Poll.foldl_watch_taken]
  rfl

/-- The answers that a task has taken up of the poll on its way: that of the device once its
controller is asked. -/
def ViewTask.taken (t : ViewTask) : List Effect :=
  match t.kind, t.fetch with
  | .device did, some (.controller _ _ _) => [.succeed (.device did)]
  | _, _ => []

end HouseBoard
