/-
HouseBoard.Proofs.Surfacing — which messages are seen at all.

A message that is added is seen as the last one at the same instant if it is to be shown for
some time, and never if it has expired by then.  Durations are taken for signed numbers and no
duration is a fault, so there are settings under which a failure is said to be shown and is not.
-/
import Mathlib.Control.Monad.Basic
import HouseBoard.Proofs.Toasts

namespace HouseBoard

/-! ## Section 1 — durations -/

/-- A duration of 64 bits is a time to come exactly if it is not zero and does not
count backwards. -/
theorem Timestamp.signedSeconds_pos_iff {seconds : Nat} (h : seconds ≤ maxSeconds) :
    0 < signedSeconds seconds ↔ 0 < seconds ∧ seconds < 2 ^ 63 := by
  have hsize : UInt64.size = 2 * 2 ^ 63 := by decide
  unfold maxSeconds at h
  unfold signedSeconds
  rw [hsize] at h
  -- from the middle of the range on a duration is taken for a negative one
  rw [hsize, Int.bmod_def]
  split <;> omega

/-- No duration makes settings a fault. -/
theorem Settings.fault?_durationSecs (s : Settings) (seconds : Nat) :
    fault? { s with notifications := { s.notifications with durationSecs := seconds } } =
      s.fault? := rfl

namespace Notifier

/-! ## Section 2 — messages that are surfaced -/

/-- A message is surfaced: it is added, or a failure is told and said to be shown. -/
inductive Surfaces (n : Notifier) (now : Int) : Toast → Notifier → Prop
  | push {level : ToastLevel} {message : String} {description : Option String} {id : Uuid}
      {n' : Notifier} (h : n.push now level message description = .ok (id, n')) :
      Surfaces n now (n.toast now level message description) n'
  | report {e : RpcError} {n' : Notifier} (h : n.reportError now e = .ok (true, n')) :
      Surfaces n now (n.toast now .error e.code.name (some e.message)) n'

variable {n n' : Notifier} {now : Int} {t : Toast}

/-- A message that is surfaced is the last one. -/
theorem Surfaces.eq_enqueue (h : n.Surfaces now t n') :
    t.expiresAt = now + n.lifetime * 1000 ∧ n' = n.enqueue t := by
  cases h with
  | push h =>
    rw [push_eq] at h
    split at h
    · cases h
      exact ⟨rfl, rfl⟩
    · cases h
  | report h =>
    obtain ⟨-, hnot, -⟩ | ⟨-, -, hadded⟩ := reportError_cases h
    · cases hnot
    · exact ⟨rfl, hadded⟩

/-- What has expired is not seen. -/
theorem not_mem_expire {later : Int} (h : t.expiresAt ≤ later) :
    t ∉ (n.expire later).toasts := by
  intro hmem
  have hshown := (List.mem_filter.mp hmem).2
  rw [decide_eq_true_eq] at hshown
  omega

/-- A message is seen as the last one at the instant at which it is surfaced exactly if it is to
be shown for some time. -/
theorem Surfaces.getLast?_expire_iff (h : n.Surfaces now t n') :
    (n'.expire now).toasts.getLast? = some t ↔ 0 < n.lifetime := by
  obtain ⟨hexpires, rfl⟩ := h.eq_enqueue
  constructor
  · intro hlast
    refine Int.not_le.mp fun hnot => ?_
    exact not_mem_expire (by omega) (List.mem_of_getLast? hlast)
  · intro hpos
    have hshown : decide (now < t.expiresAt) = true := by
      rw [decide_eq_true_eq]
      omega
    have hlast : [t].filter (fun t => decide (now < t.expiresAt)) = [t] :=
      List.filter_cons_of_pos hshown
    rw [expire, enqueue, List.filter_append, hlast, List.getLast?_concat]

/-- A failure that is not of an unknown kind is told exactly if the message expires at an
instant of the calendar. -/
theorem reportError_iff (n : Notifier) (now : Int) {e : RpcError} (he : e.code ≠ .unknown) :
    (∃ n', n.reportError now e = .ok (true, n')) ↔
    Timestamp.inCalendar (now + n.lifetime * 1000) = true := by
  rw [reportError_eq, if_neg he]
  cases Timestamp.inCalendar (now + n.lifetime * 1000) with
  | true => exact ⟨fun _ => rfl, fun _ => ⟨_, rfl⟩⟩
  | false => exact ⟨fun ⟨_, htold⟩ => (nomatch htold), nofun⟩

/-- Under any settings, whatever the messages there are: a message that is added, or a failure
that is said to be shown, is seen as the last one at the same instant exactly if the duration is
neither zero nor beyond the signed numbers; else it is never seen.  A failure that is not of an
unknown kind is said to be shown exactly if the message expires at an instant of the calendar,
and whether settings are faults does not depend on the duration. -/
theorem surfaced_seen_iff (s : Settings) (hseconds : s.notifications.durationSecs ≤ maxSeconds)
    (queue : List Toast) (id : Uuid) (now : Int) :
    let n : Notifier := { start s.notifications id with toasts := queue }
    let lasts := 0 < s.notifications.durationSecs ∧ s.notifications.durationSecs < 2 ^ 63
    (∀ seconds, Settings.fault?
      { s with notifications := { s.notifications with durationSecs := seconds } } =
        s.fault?) ∧
      (∀ e : RpcError, e.code ≠ .unknown → ((∃ n', n.reportError now e = .ok (true, n')) ↔
        Timestamp.inCalendar
          (now + Timestamp.signedSeconds s.notifications.durationSecs * 1000) = true)) ∧
      ∀ t n', n.Surfaces now t n' →
        ((n'.expire now).toasts.getLast? = some t ↔ lasts) ∧
          (¬ lasts → ∀ later, now ≤ later → t ∉ (n'.expire later).toasts) := by
  intro n lasts
  have hlifetime : n.lifetime = Timestamp.signedSeconds s.notifications.durationSecs := by
    simp only [n, start]
  have hlasts : 0 < n.lifetime ↔ lasts := by
    rw [hlifetime]
    exact Timestamp.signedSeconds_pos_iff hseconds
  refine ⟨s.fault?_durationSecs, fun e he => ?_, fun t n' h => ⟨?_, ?_⟩⟩
  · rw [← hlifetime]
    exact n.reportError_iff now he
  · rw [h.getLast?_expire_iff, hlasts]
  · intro hnot later hle
    have hexpires := h.eq_enqueue.1
    rw [← hlasts] at hnot
    exact not_mem_expire (by omega)

/-- With the duration of three seconds and room for one message, a failure takes the place of
what was seen before. -/
theorem surfaced_seen_three_seconds :
    let s : Settings := { notifications := { capacity := 1 } }
    let before : Toast := ⟨⟨0⟩, .success, "done", none, 0, 3000⟩
    let n : Notifier := { start s.notifications ⟨1⟩ with toasts := [before] }
    let e : RpcError := ⟨.unavailable, "controller down"⟩
    s.notifications.durationSecs ≤ maxSeconds ∧ ∃ n', n.reportError 1000 e = .ok (true, n') ∧
      n.Surfaces 1000 (n.toast 1000 .error e.code.name (some e.message)) n' ∧
        (n'.expire 1000).toasts.getLast? =
          some ⟨⟨1⟩, .error, "Unavailable", some "controller down", 1000, 4000⟩ := by
  intro s before n e
  have hseconds : s.notifications.durationSecs ≤ maxSeconds := by decide
  obtain ⟨-, hreports, hseen⟩ := surfaced_seen_iff s hseconds [before] ⟨1⟩ 1000
  obtain ⟨n', htold⟩ := (hreports e (by decide)).mpr (by decide)
  have htoast : n.toast 1000 .error e.code.name (some e.message) =
      ⟨⟨1⟩, .error, "Unavailable", some "controller down", 1000, 4000⟩ := by decide
  have hlast := (hseen _ n' (.report htold)).1.mpr (by decide)
  exact ⟨hseconds, n', htold, .report htold, hlast.trans (congrArg some htoast)⟩

/-- With a duration of zero seconds, which is no fault, a failure is said to be shown and is not
seen at that instant. -/
theorem surfaced_never_seen : ∃ s : Settings,
    Settings.ofText "notifications:\n  duration_secs: 0\n" = .ok s ∧ s.fault? = none ∧
      ∃ n', (start s.notifications ⟨0⟩).reportError 0 ⟨.unavailable, "controller down"⟩ =
        .ok (true, n') ∧
        (n'.expire 0).toasts = [] := by
  let s : Settings := { notifications := { durationSecs := 0 } }
  refine ⟨s, by decide +kernel, by decide, ?_⟩
  have hstart : start s.notifications ⟨0⟩ = ⟨5, 0, ⟨0⟩, []⟩ := by decide
  rw [hstart]
  exact ⟨_, rfl, by decide⟩

end Notifier

end HouseBoard
