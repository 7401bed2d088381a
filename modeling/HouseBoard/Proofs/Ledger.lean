/-
HouseBoard.Proofs.Ledger — what effects leave behind.

The effects of a task reach two places: the books, which are common to all views, and the slot
of its own view.  Each effect has one entry in either, and `Board.recorded` is the board on
which some effects have left theirs.  The main statement is `Board.performAll_eq`: a task whose
messages expire within the calendar always goes on, and leaves behind what is recorded and
nothing else.
-/
import HouseBoard.Board.Basic
import HouseBoard.Proofs.Store
import HouseBoard.Proofs.Task

namespace HouseBoard

/-! ## Section 1 — entries -/

/-- What is common to all views: the calls, the counts of polls, the last failure
and the messages. -/
structure Books where
  log : CallLog
  succeeded : Nat
  failed : Nat
  lastError : Option String
  notifier : Notifier

/-- The books after an effect at an instant of the wall clock; a message that cannot be
kept is left out. -/
def Books.post (wall : Int) (k : Books) : Effect → Books
  | .start c => { k with log := k.log.start c }
  | .complete c => { k with log := k.log.complete c }
  | .succeed _ => { k with succeeded := k.succeeded + 1 }
  | .fail _ e =>
    let notifier := match k.notifier.reportError wall e with
      | .ok (_, notifier) => notifier
      | .error .overflow => k.notifier
    { k with failed := k.failed + 1, lastError := some e.text, notifier }
  | .commit _ => k
  | .tick => k

/-- A slot after an effect of its own task. -/
def Slot.take (wall : Int) (s : Slot) : Effect → Slot
  | .commit snapshot => s.commit wall snapshot
  | .tick => s.tick
  | _ => s

/-- Effects that are quiet leave a slot as it is. -/
theorem Slot.foldl_take_of_isQuiet {es : List Effect} (h : ∀ e ∈ es, e.isQuiet = true)
    (wall : Int) (s : Slot) : es.foldl (Slot.take wall) s = s := by
  induction es with
  | nil => rfl
  | cons e es ih =>
    obtain ⟨he, hes⟩ := List.forall_mem_cons.mp h
    have hs : s.take wall e = s := by
      cases e with
      | commit snapshot => cases he
      | tick => cases he
      | _ => rfl
    rw [List.foldl_cons, hs, ih hes]

/-- Whether an effect is a failure that is to be reported. -/
def Effect.isReported : Effect → Bool
  | .fail _ e => decide (e.code ≠ .unknown)
  | _ => false

theorem Effect.isReported_iff {x : Effect} :
    x.isReported = true ↔ ∃ c e, x = .fail c e ∧ e.code ≠ .unknown := by
  cases x with
  | fail c e =>
    rw [isReported, decide_eq_true_iff]
    exact ⟨fun h => ⟨c, e, rfl, h⟩, fun ⟨_, _, heq, h⟩ => by cases heq; exact h⟩
  | _ => simp [isReported]

/-- Effects up to the first failure that is to be reported. -/
def Effect.upToReport : List Effect → List Effect
  | [] => []
  | e :: es => if e.isReported then [e] else e :: upToReport es

theorem Effect.upToReport_prefix (es : List Effect) : upToReport es <+: es := by
  induction es with
  | nil => exact List.prefix_refl []
  | cons e es ih =>
    rw [upToReport]
    split
    · exact (List.prefix_cons_inj e).mpr List.nil_prefix
    · exact (List.prefix_cons_inj e).mpr ih

/-! ## Section 2 — boards with entries -/

namespace Board

/-- The books of a board. -/
def books (b : Board) : Books where
  log := b.log
  succeeded := b.health.succeeded
  failed := b.health.failed
  lastError := b.health.lastError
  notifier := b.notifier

/-- A board with other books. -/
def withBooks (b : Board) (k : Books) : Board :=
  { b with
    log := k.log
    notifier := k.notifier
    health :=
      { b.health with succeeded := k.succeeded, failed := k.failed, lastError := k.lastError } }

/-- A board on which effects of the task of a view have left their entries. -/
def recorded (b : Board) (id : ViewId) (es : List Effect) : Board :=
  { b.withBooks (es.foldl (Books.post b.wall) b.books) with
    store := b.store.update id fun slot => es.foldl (Slot.take b.wall) slot }

theorem recorded_nil (b : Board) (id : ViewId) : b.recorded id [] = b := by
  simp [recorded, withBooks, books, Store.update_id]

/-- Entries are made one after the other. -/
theorem recorded_append (b : Board) (id : ViewId) (es es' : List Effect) :
    (b.recorded id es).recorded id es' = b.recorded id (es ++ es') := by
  simp only [recorded, withBooks, books, List.foldl_append, Store.update_update]

end Board

/-! ## Section 3 — effects leave their entries -/

/-- Whether a message that is made at an instant of the wall clock expires within
the calendar. -/
def Notifier.Lasts (n : Notifier) (wall : Int) : Prop :=
  ∃ expiry, Timestamp.after wall n.lifetime = .ok expiry

namespace Notifier

variable {n n' : Notifier} {wall : Int} {e : RpcError}

theorem lasts_iff_inCalendar :
    n.Lasts wall ↔ Timestamp.inCalendar (wall + n.lifetime * 1000) = true := by
  simp only [Lasts, Timestamp.after]
  split
  · exact iff_of_true ⟨_, rfl⟩ ‹_›
  · exact iff_of_false (fun ⟨_, h⟩ => nomatch h) ‹_›

/-- The message that is made at an instant. -/
def toast (n : Notifier) (now : Int) (level : ToastLevel) (message : String)
    (description : Option String) : Toast where
  id := n.nextId
  level := level
  message := message
  description := description
  createdAt := now
  expiresAt := now + n.lifetime * 1000

/-- A message stands behind all others, and the oldest ones leave if there is no room for it. -/
def enqueue (n : Notifier) (t : Toast) : Notifier := { n with
  toasts := n.toasts.drop (n.toasts.length + 1 - n.capacity) ++ [t]
  nextId := ⟨(n.nextId.number + 1) % Uuid.count⟩ }

/-- A message is added if it expires within the calendar. -/
theorem push_eq (n : Notifier) (now : Int) (level : ToastLevel) (message : String)
    (description : Option String) :
    n.push now level message description =
      if Timestamp.inCalendar (now + n.lifetime * 1000) then
        .ok (n.nextId, n.enqueue (n.toast now level message description))
      else .error .overflow := by
  simp only [push, Timestamp.after]
  split <;> rfl

/-- A failure is told by a message unless it is of an unknown kind. -/
theorem reportError_eq (n : Notifier) (wall : Int) (e : RpcError) :
    n.reportError wall e =
      if e.code = .unknown then .ok (false, n)
      else if Timestamp.inCalendar (wall + n.lifetime * 1000) then
        .ok (true, n.enqueue (n.toast wall .error e.code.name (some e.message)))
      else .error .overflow := by
  rw [reportError, push_eq]
  congr 1
  split <;> rfl

/-- A failure of an unknown kind changes nothing, and another one is told by a message. -/
theorem reportError_cases {shown : Bool} (h : n.reportError wall e = .ok (shown, n')) :
    (e.code = .unknown ∧ shown = false ∧ n' = n) ∨
      (e.code ≠ .unknown ∧ shown = true ∧ n' =
        n.enqueue (n.toast wall .error e.code.name (some e.message))) := by
  rw [reportError_eq] at h
  by_cases hcode : e.code = .unknown
  · rw [if_pos hcode] at h
    cases h
    exact .inl ⟨hcode, rfl, rfl⟩
  · rw [if_neg hcode] at h
    split at h
    · cases h
      exact .inr ⟨hcode, rfl, rfl⟩
    · cases h

/-- Messages do not change for how long later ones are shown. -/
theorem reportError_lifetime {shown : Bool} (h : n.reportError wall e = .ok (shown, n')) :
    n'.lifetime = n.lifetime := by
  obtain ⟨-, -, rfl⟩ | ⟨-, -, rfl⟩ := reportError_cases h
  · rfl
  · rfl

/-- Reporting a failure does not work exactly if it makes a message that does not expire
within the calendar. -/
theorem reportError_eq_error_iff :
    n.reportError wall e = .error .overflow ↔ e.code ≠ .unknown ∧ ¬ n.Lasts wall := by
  rw [reportError_eq, lasts_iff_inCalendar]
  by_cases hcode : e.code = .unknown
  · simp [hcode]
  · rw [if_neg hcode]
    split <;> simp_all

end Notifier

@[simp] theorem Books.post_lifetime (wall : Int) (k : Books) (e : Effect) :
    (k.post wall e).notifier.lifetime = k.notifier.lifetime := by
  cases e with
  | fail c e =>
    simp only [post]
    split
    · exact Notifier.reportError_lifetime ‹_›
    · rfl
  | _ => rfl

theorem Books.foldl_post_lifetime (wall : Int) (es : List Effect) (k : Books) :
    (es.foldl (Books.post wall) k).notifier.lifetime = k.notifier.lifetime := by
  induction es generalizing k with
  | nil => rfl
  | cons e es ih => rw [List.foldl_cons, ih, Books.post_lifetime]

namespace Board

/-- An effect leaves its entry, also when the task cannot go on after it. -/
theorem perform_snd (b : Board) (id : ViewId) (e : Effect) :
    (b.perform id e).2 = b.recorded id [e] := by
  cases e with
  | commit snapshot => rfl
  | tick => rfl
  | fail c e =>
    simp only [perform, report, recorded, withBooks, books, Books.post, List.foldl_cons,
      List.foldl_nil, Slot.take, Store.update_id, Health.fail]
    cases b.notifier.reportError b.wall e with
    | ok r => rfl
    | error o => rfl
  | _ =>
    simp [perform, recorded, withBooks, books, Books.post, Slot.take, Store.update_id,
      Health.succeed]

theorem report_fst_eq_false_iff {b : Board} {e : RpcError} :
    (b.report e).1 = false ↔ e.code ≠ .unknown ∧ ¬ b.notifier.Lasts b.wall := by
  rw [← Notifier.reportError_eq_error_iff]
  unfold report
  cases b.notifier.reportError b.wall e with
  | ok r => simp
  | error o => simp

theorem perform_fst_eq_false_iff {b : Board} {id : ViewId} {x : Effect} :
    (b.perform id x).1 = false ↔ ∃ c e, x = .fail c e ∧ e.code ≠ .unknown ∧
    ¬ b.notifier.Lasts b.wall := by
  cases x with
  | fail c e =>
    have hreport : (b.perform id (.fail c e)).1 = false ↔ _ :=
      report_fst_eq_false_iff (b := { b with health := b.health.fail e })
    rw [hreport]
    constructor
    · exact fun h => ⟨c, e, rfl, h⟩
    · rintro ⟨_, _, ⟨⟩, h⟩
      exact h
  | _ => simp [perform]

/-- Effects leave their entries up to the last that is performed. -/
theorem performAll_snd (b : Board) (id : ViewId) (es : List Effect) :
    ∃ es', es' <+: es ∧ (b.performAll id es).2 = b.recorded id es' ∧
      ((b.performAll id es).1 = true → es' = es) := by
  induction es generalizing b with
  | nil => exact ⟨[], List.prefix_refl [], (recorded_nil b id).symm, fun _ => rfl⟩
  | cons e es ih =>
    have hsnd := perform_snd b id e
    cases hperform : b.perform id e with
    | mk alive b' =>
      rw [hperform] at hsnd
      subst hsnd
      cases alive with
      | true =>
        obtain ⟨es', hpart, hes', hall⟩ := ih (b.recorded id [e])
        refine ⟨e :: es', (List.prefix_cons_inj e).mpr hpart, ?_, ?_⟩
        · simp only [performAll, hperform]
          rw [hes', recorded_append]
          rfl
        · simp only [performAll, hperform]
          intro h
          rw [hall h]
      | false =>
        refine ⟨[e], ?_, ?_, ?_⟩
        · simp
        · simp only [performAll, hperform]
        · simp only [performAll, hperform]
          intro h
          cases h

/-- A task all of whose effects are performed leaves behind what is recorded and
nothing else. -/
theorem performAll_eq {b : Board} {id : ViewId} {es : List Effect}
    (h : (b.performAll id es).1 = true) : b.performAll id es = (true, b.recorded id es) := by
  obtain ⟨es', _, hes', hall⟩ := performAll_snd b id es
  rw [hall h] at hes'
  exact Prod.ext h hes'

/-- Entries do not change whether messages expire within the calendar. -/
theorem lasts_recorded {b : Board} {id : ViewId} {es : List Effect} :
    (b.recorded id es).notifier.Lasts (b.recorded id es).wall ↔ b.notifier.Lasts b.wall := by
  have hlife : (b.recorded id es).notifier.lifetime = b.notifier.lifetime :=
    Books.foldl_post_lifetime b.wall es b.books
  unfold Notifier.Lasts
  rw [hlife]
  rfl

/-- A task cannot go on exactly if it has a message to make that does not expire
within the calendar. -/
theorem performAll_fst_eq_false_iff {b : Board} {id : ViewId} {es : List Effect} :
    (b.performAll id es).1 = false ↔ ¬ b.notifier.Lasts b.wall ∧ ∃ c e, .fail c e ∈ es ∧
    e.code ≠ .unknown := by
  induction es generalizing b with
  | nil => simp [performAll]
  | cons x es ih =>
    have hsnd := perform_snd b id x
    cases hperform : b.perform id x with
    | mk alive b' =>
      rw [hperform] at hsnd
      subst hsnd
      have hfirst : (b.perform id x).1 = false ↔ _ := perform_fst_eq_false_iff
      rw [hperform] at hfirst
      simp only [performAll, hperform]
      cases alive with
      | true =>
        simp only [ih, lasts_recorded, List.mem_cons]
        simp only [Bool.true_eq_false, false_iff] at hfirst
        grind
      | false =>
        obtain ⟨c, e, rfl, hcode, hnot⟩ := hfirst.mp rfl
        simp only [true_iff]
        exact ⟨hnot, c, e, List.mem_cons_self, hcode⟩

/-- A task that cannot go on leaves behind what is recorded up to the first failure that
is to be reported. -/
theorem performAll_of_false {b : Board} {id : ViewId} {es : List Effect}
    (h : (b.performAll id es).1 = false) :
    (b.performAll id es).2 = b.recorded id (Effect.upToReport es) ∧
      ∃ es₀ c e, Effect.upToReport es = es₀ ++ [.fail c e] := by
  induction es generalizing b with
  | nil => cases h
  | cons x es ih =>
    have hsnd := perform_snd b id x
    cases hperform : b.perform id x with
    | mk alive b' =>
      rw [hperform] at hsnd
      subst hsnd
      simp only [performAll, hperform] at h ⊢
      cases alive with
      | true =>
        obtain ⟨hes, es₀, c, e, hlast⟩ := ih h
        -- the messages do not last, so that what could be performed was not to be reported
        have hquiet : x.isReported = false := by
          obtain ⟨hnot, _⟩ := performAll_fst_eq_false_iff.mp h
          rw [lasts_recorded] at hnot
          exact eq_false_of_ne_true fun hx => by
            obtain ⟨c', e', rfl, hcode⟩ := Effect.isReported_iff.mp hx
            have hfalse : (b.perform id (.fail c' e')).1 = false :=
              perform_fst_eq_false_iff.mpr ⟨c', e', rfl, hcode, hnot⟩
            rw [hperform] at hfalse
            cases hfalse
        rw [Effect.upToReport, if_neg (ne_true_of_eq_false hquiet)]
        refine ⟨?_, x :: es₀, c, e, by rw [hlast]; rfl⟩
        rw [hes, recorded_append]
        rfl
      | false =>
        obtain ⟨c, e, rfl, hcode, _⟩ := perform_fst_eq_false_iff.mp (congrArg Prod.fst hperform)
        rw [Effect.upToReport, if_pos (Effect.isReported_iff.mpr ⟨c, e, rfl, hcode⟩)]
        exact ⟨rfl, [], c, e, rfl⟩

/-- A task can do all that it does if messages expire within the calendar. -/
theorem performAll_fst_of_lasts {b : Board} (h : b.notifier.Lasts b.wall) (id : ViewId)
    (es : List Effect) : (b.performAll id es).1 = true := by
  rw [← Bool.not_eq_false, performAll_fst_eq_false_iff]
  exact fun hno => hno.1 h

end Board

end HouseBoard
