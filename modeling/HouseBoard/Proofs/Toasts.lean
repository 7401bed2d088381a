/-
HouseBoard.Proofs.Toasts — messages come and go as in an ideal queue.

A notifier lets expired messages go only when someone looks, and makes room by the number of
messages that are there, expired or not.  An ideal queue knows only messages that are still to
be shown (Section 1).  What is seen of the two is the same: the expired messages of a notifier
stand before all others, and so they are the first to make room.  One thing that is asked of
both keeps them alike (Section 3), and so does whatever is asked in the course of time (Section
4).
-/
import Mathlib.Algebra.Group.Nat.Defs
import HouseBoard.Proofs.Ledger
import HouseBoard.Proofs.Records

namespace HouseBoard

/-! ## Section 1 — ideal queues -/

/-- What is asked of a notifier at an instant.  A message that is added takes an identifier that
is drawn for it. -/
inductive Notice where
  | push (now : Int) (id : Uuid) (level : ToastLevel) (message : String)
      (description : Option String)
  | look (now : Int)
  | dismiss (now : Int) (id : Uuid)
  deriving DecidableEq, Repr

namespace Notice

/-- When it is asked. -/
def now : Notice → Int
  | .push now .. => now
  | .look now => now
  | .dismiss now _ => now

/-- Whether someone looks at the messages. -/
def isLook : Notice → Bool
  | .look _ => true
  | _ => false

/-- The message that is added, if it is to be shown for some milliseconds. -/
def toast? (duration : Int) : Notice → Option Toast
  | .push now id level message description =>
    some { id, level, message, description, createdAt := now, expiresAt := now + duration }
  | _ => none

/-- The identifiers of the messages that are added. -/
def ids (ops : List Notice) : List Uuid :=
  ops.filterMap fun | .push _ id .. => some id | _ => none

/-- What is asked first is asked before all else. -/
theorem now_le_of_pairwise {op : Notice} {ops : List Notice}
    (h : (op :: ops).Pairwise fun x y => x.now ≤ y.now) : ∀ x ∈ op :: ops, op.now ≤ x.now :=
  List.forall_mem_cons.mpr ⟨Int.le_refl _, (List.pairwise_cons.mp h).1⟩

theorem ids_append (ops ops' : List Notice) : ids (ops ++ ops') = ids ops ++ ids ops' :=
  List.filterMap_append

theorem ids_cons (op : Notice) (ops : List Notice) : ids (op :: ops) = ids [op] ++ ids ops :=
  ids_append [op] ops

/-- Who looks adds no message. -/
theorem ids_filter (ops : List Notice) : ids (ops.filter fun op => !op.isLook) = ids ops := by
  rw [ids, ids, List.filterMap_filter]
  congr 1
  funext op
  cases op <;> rfl

end Notice

/-- A message that is added is to be shown until an instant of the calendar. -/
def Notice.Lasts (duration : Int) : Notice → Prop
  | .push now .. => Timestamp.inCalendar (now + duration) = true
  | _ => True

instance (duration : Int) (op : Notice) : Decidable (op.Lasts duration) :=
  match op with
  | .push .. => inferInstanceAs (Decidable (_ = true))
  | .look _ | .dismiss .. => .isTrue trivial

namespace Toast

/-- Messages of which each is there exactly as long as it is to be shown. -/
structure Queue where
  /-- How many messages there are at most. -/
  room : Nat
  /-- The milliseconds for which messages are shown. -/
  duration : Int
  toasts : List Toast := []

namespace Queue

/-- The messages that are there at an instant: each vanishes when its time is over. -/
def passed (q : Queue) (now : Int) : Queue :=
  { q with toasts := q.toasts.filter fun t => now < t.createdAt + q.duration }

/-- The messages beside which there is room for one more: if there is none, the
oldest one leaves. -/
def kept (q : Queue) : List Toast :=
  if q.toasts.length < q.room then q.toasts else q.toasts.tail

/-- Adds a message. -/
def push (q : Queue) (t : Toast) : Queue := { q with toasts := q.kept ++ [t] }

/-- Takes one message away. -/
def dismiss (q : Queue) (id : Uuid) : Queue := { q with toasts := q.toasts.eraseP (·.id = id) }

/-- Does what is asked at an instant. -/
def heed (q : Queue) : Notice → Queue
  | .push now id level message description =>
    (q.passed now).push
      { id, level, message, description, createdAt := now, expiresAt := now + q.duration }
  | .look now => q.passed now
  | .dismiss now id => (q.passed now).dismiss id

end Queue

end Toast

/-! ## Section 2 — what is there later -/

/-- What is left later of what was left before is what is left later. -/
theorem filter_filter_of_le {α : Type} (end_ : α → Int) {now later : Int} (hle : now ≤ later)
    (l : List α) :
    (l.filter fun x => now < end_ x).filter (fun x => later < end_ x) = l.filter fun x =>
      later < end_ x := by
  rw [List.filter_filter]
  refine List.filter_congr fun x _ => ?_
  rw [Bool.and_eq_left_iff_imp]
  simp only [decide_eq_true_eq]
  omega

theorem Toast.Queue.duration_heed (q : Queue) (op : Notice) :
    (q.heed op).duration = q.duration := by
  cases op <;> rfl

theorem Toast.Queue.room_foldl_heed (q : Queue) (ops : List Notice) :
    (ops.foldl heed q).room = q.room := by
  induction ops generalizing q with
  | nil => rfl
  | cons op ops ih =>
    have hstep : (q.heed op).room = q.room := by cases op <;> rfl
    rw [List.foldl_cons, ih, hstep]

theorem Toast.Queue.passed_passed (q : Queue) {now later : Int} (hle : now ≤ later) :
    (q.passed now).passed later = q.passed later :=
  congrArg (fun toasts => { q with toasts })
    (filter_filter_of_le (fun t => t.createdAt + q.duration) hle q.toasts)

theorem Notifier.expire_expire (n : Notifier) {now later : Int} (hle : now ≤ later) :
    (n.expire now).expire later = n.expire later :=
  congrArg (fun toasts => { n with toasts })
    (filter_filter_of_le (fun t => t.expiresAt) hle n.toasts)

/-- If what comes later in a list has a property that comes earlier, what has it
stands at the end. -/
theorem exists_append_filter {α : Type} {p : α → Bool} {l : List α}
    (h : l.Pairwise fun x y => p x = true → p y = true) :
    ∃ others, l = others ++ l.filter p ∧ ∀ x ∈ others, p x = false := by
  induction l with
  | nil => exact ⟨[], rfl, by simp⟩
  | cons x l ih =>
    obtain ⟨hx, hl⟩ := List.pairwise_cons.mp h
    cases hp : p x with
    | true =>
      have hall : ∀ y ∈ x :: l, p y = true :=
        List.forall_mem_cons.mpr ⟨hp, fun y hy => hx y hy hp⟩
      exact ⟨[], by rw [List.filter_eq_self.mpr hall, List.nil_append], by simp⟩
    | false =>
      obtain ⟨others, heq, hothers⟩ := ih hl
      refine ⟨x :: others, ?_, List.forall_mem_cons.mpr ⟨hp, hothers⟩⟩
      rw [List.filter_cons_of_neg (by simp [hp]), List.cons_append, ← heq]

/-- If no two messages have the same identifier, the one that has it is all that is
taken away with it. -/
theorem eraseP_eq_filter {l : List Toast} (hl : (l.map (·.id)).Nodup) (id : Uuid) :
    (l.eraseP fun t => t.id = id) = l.filter fun t => t.id ≠ id := by
  induction l with
  | nil => rfl
  | cons t l ih =>
    obtain ⟨hnot, hrest⟩ := List.nodup_cons.mp hl
    by_cases ht : t.id = id
    · have hall : ∀ u ∈ l, decide (u.id ≠ id) = true := by
        intro u hu
        rw [decide_eq_true_eq, ← ht]
        exact fun heq => hnot (List.mem_map.mpr ⟨u, hu, heq⟩)
      rw [List.eraseP_cons_of_pos (by simpa using ht),
        List.filter_cons_of_neg (by simpa using ht), List.filter_eq_self.mpr hall]
    · rw [List.eraseP_cons_of_neg (by simpa using ht),
        List.filter_cons_of_pos (by simpa using ht), ih hrest]

/-! ## Section 3 — notifiers -/

namespace Notifier

/-- Does what is asked. -/
def heed (n : Notifier) : Notice → Except Overflow Notifier
  | .push now id level message description => do
    let (_, n) ← { n with nextId := id }.push now level message description
    return n
  | .look now => return n.expire now
  | .dismiss _ id => return (n.dismiss id).2

variable {n n' : Notifier} {q : Toast.Queue} {now later : Int}

/-- A message is added behind those for which there is room, if it lasts. -/
theorem heed_push (n : Notifier) (now : Int) (id : Uuid) (level : ToastLevel) (message : String)
    (description : Option String) :
    n.heed (.push now id level message description) =
      if Timestamp.inCalendar (now + n.lifetime * 1000) then .ok
        { n with
          toasts := n.toasts.drop (n.toasts.length + 1 - n.capacity) ++
            [{ id, level, message, description, createdAt := now,
               expiresAt := now + n.lifetime * 1000 }]
          nextId := ⟨(id.number + 1) % Uuid.count⟩ }
      else .error .overflow := by
  simp only [heed, push_eq]
  split <;> rfl

/-- From an instant on a notifier shows what an ideal queue has.  Its messages stand in the
order in which they were made, so that those that have expired come first. -/
structure Matches (n : Notifier) (q : Toast.Queue) (now : Int) : Prop where
  room : q.room = n.capacity
  duration : q.duration = n.lifetime * 1000
  room_pos : 0 < n.capacity
  length_le : n.toasts.length ≤ n.capacity
  sorted : n.toasts.Pairwise fun t u => t.createdAt ≤ u.createdAt
  past : ∀ t ∈ n.toasts, t.createdAt ≤ now
  expires : ∀ t ∈ n.toasts, t.expiresAt = t.createdAt + q.duration
  distinct : (n.toasts.map (·.id)).Nodup
  same : ∀ later, now ≤ later → (q.passed later).toasts = (n.expire later).toasts

theorem matches_start (s : NotificationSettings) (firstId : Uuid) (now : Int) :
    (start s firstId).Matches
      ⟨max s.capacity 1, Timestamp.signedSeconds s.durationSecs * 1000, []⟩ now where
  room := rfl
  duration := by rw [start]
  room_pos := Nat.lt_of_lt_of_le Nat.one_pos (Nat.le_max_right _ _)
  length_le := Nat.zero_le _
  sorted := .nil
  past := by simp [start]
  expires := by simp [start]
  distinct := .nil
  same := fun _ _ => rfl

namespace Matches

/-- What matches from an instant on matches from every later one. -/
theorem mono (h : n.Matches q now) (hle : now ≤ later) : n.Matches q later :=
  { h with
    past := fun t ht => Int.le_trans (h.past t ht) hle
    same := fun instant hinstant => h.same instant (Int.le_trans hle hinstant) }

/-- The messages that have expired stand before those that are still shown. -/
theorem exists_expired (h : n.Matches q now) (instant : Int) :
    ∃ dead, n.toasts = dead ++ (n.expire instant).toasts ∧ ∀ t ∈ dead,
    t.expiresAt ≤ instant := by
  have hmono : n.toasts.Pairwise fun t u =>
      decide (instant < t.expiresAt) = true → decide (instant < u.expiresAt) = true := by
    refine h.sorted.imp_of_mem fun {t u} ht hu hle => ?_
    simp only [decide_eq_true_eq, h.expires t ht, h.expires u hu]
    omega
  obtain ⟨dead, heq, hdead⟩ := exists_append_filter hmono
  exact ⟨dead, heq, fun t ht => by simpa using hdead t ht⟩

/-- What an ideal queue has later are the messages of the notifier that are shown then. -/
theorem filter_eq {l : List Toast} (h : n.Matches q now) (hl : ∀ t ∈ l, t ∈ n.toasts)
    (instant : Int) :
    l.filter (fun t => instant < t.createdAt + q.duration) = l.filter fun t =>
      instant < t.expiresAt :=
  List.filter_congr fun t ht => by rw [h.expires t (hl t ht)]

/-- To look at the messages changes nothing of what is seen later. -/
theorem look (h : n.Matches q now) : (n.expire now).Matches (q.passed now) now := by
  have hsub : (n.expire now).toasts.Sublist n.toasts := List.filter_sublist
  refine
    { h with
      length_le := Nat.le_trans hsub.length_le h.length_le
      sorted := h.sorted.sublist hsub
      past := fun t ht => h.past t (hsub.subset ht)
      expires := fun t ht => h.expires t (hsub.subset ht)
      distinct := h.distinct.sublist (hsub.map _)
      same := fun later hle => ?_ }
  rw [q.passed_passed hle, h.same later hle, n.expire_expire hle]

/-- When room is made for a message, what stays are messages that have expired and those that an
ideal queue keeps. -/
theorem exists_kept (h : n.Matches q now) :
    ∃ dead, n.toasts.drop (n.toasts.length + 1 - n.capacity) = dead ++ (q.passed now).kept ∧
      ∀ t ∈ dead, t.expiresAt ≤ now := by
  obtain ⟨dead, heq, hdead⟩ := h.exists_expired now
  rw [← h.same now (Int.le_refl now)] at heq
  have hlength := congrArg List.length heq
  rw [List.length_append] at hlength
  have hle := h.length_le
  have hroom : (q.passed now).room = n.capacity := h.room
  unfold Toast.Queue.kept
  rcases Nat.lt_or_ge n.toasts.length n.capacity with hspace | hfull
  · refine ⟨dead, ?_, hdead⟩
    rw [if_pos (by omega), Nat.sub_eq_zero_of_le hspace, List.drop_zero]
    exact heq
  · have hone : n.toasts.length + 1 - n.capacity = 1 := by omega
    rw [hone, heq]
    cases dead with
    | nil =>
      -- all messages are still shown, and the first of them makes room
      rw [List.length_nil] at hlength
      refine ⟨[], ?_, by simp⟩
      rw [if_neg (by omega), List.nil_append, List.drop_one, List.nil_append]
    | cons d dead =>
      rw [List.length_cons] at hlength
      refine ⟨dead, ?_, fun t ht => hdead t (List.mem_cons_of_mem d ht)⟩
      rw [if_pos (by omega), List.cons_append, List.drop_succ_cons, List.drop_zero]

/-- A message is added to both alike, and makes room alike. -/
theorem push (h : n.Matches q now) {id : Uuid} {level : ToastLevel} {message : String}
    {description : Option String} (hlasts : Timestamp.inCalendar (now + q.duration) = true)
    (hfresh : id ∉ n.toasts.map (·.id)) :
    ∃ n', n.heed (.push now id level message description) = .ok n' ∧
      n'.Matches (q.heed (.push now id level message description)) now := by
  rw [heed_push, ← h.duration, if_pos hlasts]
  refine ⟨_, rfl, ?_⟩
  generalize hkept : n.toasts.drop (n.toasts.length + 1 - n.capacity) = kept
  generalize ht : Toast.mk id level message description now (now + q.duration) = t
  have hsub : kept.Sublist n.toasts := hkept ▸ List.drop_sublist _ _
  have hmem {P : Toast → Prop} (hold : ∀ u ∈ n.toasts, P u) (hnew : P t) :
      ∀ u ∈ kept ++ [t], P u := by
    intro u hu
    rcases List.mem_append.mp hu with hu | hu
    · exact hold u (hsub.subset hu)
    · rwa [List.mem_singleton.mp hu]
  refine
    { room := h.room
      duration := h.duration
      room_pos := h.room_pos
      length_le := ?_
      sorted := ?_
      past := hmem h.past (Int.le_of_eq (by rw [← ht]))
      expires := hmem h.expires (by rw [← ht]; rfl)
      distinct := ?_
      same := fun later hle => ?_ }
  · have hpos := h.room_pos
    rw [List.length_append, ← hkept, List.length_drop, List.length_singleton]
    show _ ≤ n.capacity
    omega
  · rw [List.pairwise_append]
    refine ⟨h.sorted.sublist hsub, by simp, fun u hu v hv => ?_⟩
    rw [List.mem_singleton.mp hv, ← ht]
    exact h.past u (hsub.subset hu)
  · rw [List.map_append, List.nodup_append]
    refine ⟨h.distinct.sublist (hsub.map _), by simp, ?_⟩
    rintro _ hold _ hnew rfl
    rw [List.map_singleton, List.mem_singleton, ← ht] at hnew
    subst hnew
    exact hfresh ((hsub.map _).subset hold)
  · obtain ⟨dead, heq, hdead⟩ := h.exists_kept
    rw [hkept] at heq
    have hexpired : dead.filter (fun u => later < u.expiresAt) = [] :=
      List.filter_eq_nil_iff.mpr fun u hu => by simpa using Int.le_trans (hdead u hu) hle
    have hshown : ∀ u ∈ (q.passed now).kept, u ∈ n.toasts :=
      fun u hu => hsub.subset (heq ▸ List.mem_append_right dead hu)
    calc
      _ = ((q.passed now).kept ++ [t]).filter (fun u => later < u.createdAt + q.duration) := by
        rw [← ht]; rfl
      _ = (q.passed now).kept.filter (fun u => later < u.expiresAt) ++
          [t].filter (fun u => later < u.expiresAt) := by
        rw [List.filter_append, h.filter_eq hshown later, ← ht]
        rfl
      _ = (kept ++ [t]).filter (fun u => later < u.expiresAt) := by
        rw [heq, List.filter_append, List.filter_append, hexpired, List.nil_append]

/-- A message is taken away from both. -/
theorem dismiss (h : n.Matches q now) (id : Uuid) :
    (n.dismiss id).2.Matches ((q.passed now).dismiss id) now := by
  have hsub : (n.dismiss id).2.toasts.Sublist n.toasts := List.filter_sublist
  refine
    { h with
      length_le := Nat.le_trans hsub.length_le h.length_le
      sorted := h.sorted.sublist hsub
      past := fun t ht => h.past t (hsub.subset ht)
      expires := fun t ht => h.expires t (hsub.subset ht)
      distinct := h.distinct.sublist (hsub.map _)
      same := fun later hle => ?_ }
  have hlive : (n.expire now).toasts.Sublist n.toasts := List.filter_sublist
  have hshown : ∀ t ∈ (n.expire now).toasts.eraseP (·.id = id), t ∈ n.toasts :=
    fun t ht => hlive.subset (List.mem_of_mem_eraseP ht)
  calc
    _ = ((n.expire now).toasts.eraseP (·.id = id)).filter (fun t => later < t.expiresAt) := by
      rw [← h.filter_eq hshown later, ← h.same now (Int.le_refl now)]
      rfl
    _ = ((n.dismiss id).2.toasts.filter fun t => now < t.expiresAt).filter fun t =>
        later < t.expiresAt := by
      rw [eraseP_eq_filter (h.distinct.sublist (hlive.map _)) id]
      simp only [expire, Notifier.dismiss, List.filter_filter, Bool.and_comm]
    _ = ((n.dismiss id).2.expire later).toasts := filter_filter_of_le _ hle _

/-- Whatever is asked of a notifier and of an ideal queue, they match afterwards. -/
theorem heed (h : n.Matches q now) {op : Notice} (hlater : now ≤ op.now)
    (hlasts : op.Lasts q.duration) (hfresh : ∀ id ∈ Notice.ids [op], id ∉ n.toasts.map (·.id)) :
    ∃ n', n.heed op = .ok n' ∧ n'.Matches (q.heed op) op.now := by
  have hnow := h.mono hlater
  cases op with
  | push now id level message description =>
    exact hnow.push hlasts (hfresh id (by simp [Notice.ids]))
  | look now => exact ⟨n.expire now, rfl, hnow.look⟩
  | dismiss now id => exact ⟨(n.dismiss id).2, rfl, hnow.dismiss id⟩

end Matches

/-! ## Section 4 — whatever is asked in the course of time -/

/-- The messages of a notifier were there before, or were added. -/
theorem mem_of_heed {op : Notice} (h : n.heed op = .ok n') {t : Toast} (ht : t ∈ n'.toasts) :
    t ∈ n.toasts ∨ t.id ∈ Notice.ids [op] := by
  cases op with
  | push now id level message description =>
    rw [heed_push] at h
    split at h
    · cases h
      rcases List.mem_append.mp ht with ht | ht
      · exact .inl (List.mem_of_mem_drop ht)
      · exact .inr (by simp [List.mem_singleton.mp ht, Notice.ids])
    · cases h
  | look now =>
    cases h
    exact .inl (List.mem_filter.mp ht).1
  | dismiss now id =>
    cases h
    exact .inl (List.mem_filter.mp ht).1

theorem mem_of_foldlM {ops : List Notice} (h : ops.foldlM heed n = .ok n') {t : Toast}
    (ht : t ∈ n'.toasts) : t ∈ n.toasts ∨ t.id ∈ Notice.ids ops := by
  induction ops generalizing n with
  | nil =>
    cases h
    exact .inl ht
  | cons op ops ih =>
    rw [List.foldlM_cons, bind_eq_ok_iff] at h
    obtain ⟨n₁, hfirst, hrest⟩ := h
    rw [Notice.ids_cons, List.mem_append]
    rcases ih hrest with hmem | hadded
    · exact (mem_of_heed hfirst hmem).imp_right .inl
    · exact .inr (.inr hadded)

/-- Whatever is asked in the course of time, a notifier and an ideal queue that match
do so ever after. -/
theorem Matches.run {ops : List Notice} (h : n.Matches q now)
    (hlater : ∀ op ∈ ops, now ≤ op.now) (htimes : ops.Pairwise fun x y => x.now ≤ y.now)
    (hlasts : ∀ op ∈ ops, op.Lasts q.duration) (hids : (Notice.ids ops).Nodup)
    (hfresh : ∀ t ∈ n.toasts, t.id ∉ Notice.ids ops) :
    ∃ n', ops.foldlM Notifier.heed n = .ok n' ∧ ∀ later, now ≤ later →
      (∀ op ∈ ops, op.now ≤ later) →
      n'.Matches (ops.foldl Toast.Queue.heed q) later := by
  induction ops generalizing n q now with
  | nil => exact ⟨n, rfl, fun later hle _ => h.mono hle⟩
  | cons op ops ih =>
    obtain ⟨hops, htimes'⟩ := List.pairwise_cons.mp htimes
    obtain ⟨hop, hlasts'⟩ := List.forall_mem_cons.mp hlasts
    rw [Notice.ids_cons] at hids hfresh
    obtain ⟨_, hids', hapart⟩ := List.nodup_append.mp hids
    have hnew : ∀ id ∈ Notice.ids [op], id ∉ n.toasts.map (·.id) := by
      intro id hid hmem
      obtain ⟨t, ht, rfl⟩ := List.mem_map.mp hmem
      exact hfresh t ht (List.mem_append_left _ hid)
    obtain ⟨n₁, hfirst, hmatches⟩ := h.heed (hlater op List.mem_cons_self) hop hnew
    have hfresh₁ : ∀ t ∈ n₁.toasts, t.id ∉ Notice.ids ops := by
      intro t ht hmem
      rcases mem_of_heed hfirst ht with hold | hadded
      · exact hfresh t hold (List.mem_append_right _ hmem)
      · exact hapart _ hadded _ hmem rfl
    rw [← q.duration_heed op] at hlasts'
    obtain ⟨n', hrest, hall⟩ := ih hmatches hops htimes' hlasts' hids' hfresh₁
    refine ⟨n', by rw [List.foldlM_cons, hfirst]; exact hrest, fun later _ hpast => ?_⟩
    obtain ⟨hpast₁, hpast'⟩ := List.forall_mem_cons.mp hpast
    exact hall later hpast₁ hpast'

end Notifier

/-! ## Section 5 — what an ideal queue has -/

namespace Toast.Queue

variable {q q' : Queue} {op : Notice}

/-- What an ideal queue does depends on the messages that are there at the instant. -/
theorem heed_congr (h : q.passed op.now = q'.passed op.now) : q.heed op = q'.heed op := by
  have hduration : q.duration = q'.duration :=
    show (q.passed op.now).duration = (q'.passed op.now).duration by rw [h]
  cases op with
  | push now id level message description =>
    simp only [Notice.now] at h
    simp only [heed, h, hduration]
  | look now => exact h
  | dismiss now id => exact congrArg (dismiss · id) h

/-- To look at the messages of an ideal queue changes nothing of what it has later. -/
theorem passed_foldl_filter {ops : List Notice} {now later : Int}
    (h : ∀ instant, now ≤ instant → q.passed instant = q'.passed instant)
    (hlater : ∀ op ∈ ops, now ≤ op.now) (htimes : ops.Pairwise fun x y => x.now ≤ y.now)
    (hnow : now ≤ later) (hpast : ∀ op ∈ ops, op.now ≤ later) :
    (ops.foldl heed q).passed later =
      ((ops.filter fun op => !op.isLook).foldl heed q').passed later := by
  induction ops generalizing q q' now with
  | nil => exact h later hnow
  | cons op ops ih =>
    obtain ⟨hops, htimes'⟩ := List.pairwise_cons.mp htimes
    obtain ⟨hop, hpast'⟩ := List.forall_mem_cons.mp hpast
    have hlate := hlater op List.mem_cons_self
    cases hlook : op.isLook with
    | true =>
      rw [List.foldl_cons, List.filter_cons_of_neg (by simp [hlook])]
      refine ih (fun instant hinstant => ?_) hops htimes' hop hpast'
      cases op with
      | look now =>
        exact (q.passed_passed hinstant).trans (h instant (Int.le_trans hlate hinstant))
      | _ => cases hlook
    | false =>
      rw [List.foldl_cons, List.filter_cons_of_pos (by simp [hlook]), List.foldl_cons,
        heed_congr (h op.now hlate)]
      exact ih (fun _ _ => rfl) hops htimes' hop hpast'

/-- When someone looked makes no difference to what an ideal queue has in the end. -/
theorem passed_foldl_isLook (q : Queue) {ops : List Notice} {later : Int}
    (htimes : ops.Pairwise fun x y => x.now ≤ y.now) (hpast : ∀ op ∈ ops, op.now ≤ later) :
    (ops.foldl heed q).passed later =
      ((ops.filter fun op => !op.isLook).foldl heed q).passed later := by
  cases ops with
  | nil => rfl
  | cons op ops =>
    have hops := Notice.now_le_of_pairwise htimes
    exact passed_foldl_filter (fun _ _ => rfl) hops htimes (hpast op List.mem_cons_self) hpast

/-- The messages of an ideal queue stand in the order in which they were added. -/
theorem foldl_heed_sublist (q : Queue) (ops : List Notice) :
    (ops.foldl heed q).toasts.Sublist
      (q.toasts ++ ops.filterMap (Notice.toast? q.duration)) := by
  induction ops generalizing q with
  | nil => simp
  | cons op ops ih =>
    have hstep : (q.heed op).toasts.Sublist
        (q.toasts ++ [op].filterMap (Notice.toast? q.duration)) := by
      have hpassed (now : Int) : (q.passed now).toasts.Sublist q.toasts := List.filter_sublist
      cases op with
      | push now id level message description =>
        have hkept : (q.passed now).kept.Sublist q.toasts := by
          unfold kept
          split
          · exact hpassed now
          · exact (List.tail_sublist _).trans (hpassed now)
        exact hkept.append (List.Sublist.refl _)
      | look now => exact (hpassed now).trans (List.sublist_append_left _ _)
      | dismiss now id =>
        exact (List.eraseP_sublist.trans (hpassed now)).trans (List.sublist_append_left _ _)
    have hrest := ih (q.heed op)
    rw [duration_heed] at hrest
    rw [List.foldl_cons, ← List.singleton_append, List.filterMap_append, ← List.append_assoc]
    exact hrest.trans (hstep.append_right _)

end Toast.Queue

/-! ## Section 6 — notifiers as ideal queues -/

/-- Below the largest signed one, a number of seconds is taken for what it is. -/
theorem Timestamp.signedSeconds_of_lt {seconds : Nat} (h : seconds < 2 ^ 63) :
    signedSeconds seconds = seconds := by
  have hsize : UInt64.size = 2 * 2 ^ 63 := by decide
  refine Int.bmod_eq_of_le_mul_two ?_ ?_
  · omega
  · omega

namespace Notifier

variable {n : Notifier}

/-- What is seen at an instant of a notifier of which some things were asked before. -/
structure ActsAsQueue (n : Notifier) (room : Nat) (duration : Int) (ops : List Notice)
    (now : Int) : Prop where
  /-- It shows what an ideal queue has. -/
  shows : (n.expire now).toasts =
    ((ops.foldl Toast.Queue.heed ⟨room, duration, []⟩).passed now).toasts
  ordered : (n.expire now).toasts.Sublist (ops.filterMap (Notice.toast? duration))
  distinct : ((n.expire now).toasts.map (·.id)).Nodup
  bounded : (n.expire now).toasts.length ≤ room
  /-- While fewer messages are shown than there is room for, none of them makes room
  for another one. -/
  spares : ∀ id level message description n',
    n.heed (.push now id level message description) = .ok n' →
    (n.expire now).toasts.length < room → ∀ t ∈ (n.expire now).toasts, t ∈ n'.toasts

/-- From its start on a notifier matches an ideal queue, whatever is asked of it in
the course of time. -/
theorem start_matches {s : NotificationSettings} {ops : List Notice} (firstId : Uuid)
    (hseconds : s.durationSecs < 2 ^ 63) (htimes : ops.Pairwise fun x y => x.now ≤ y.now)
    (hlasts : ∀ op ∈ ops, op.Lasts (s.durationSecs * 1000)) (hids : (Notice.ids ops).Nodup) :
    ∃ n, ops.foldlM heed (start s firstId) = .ok n ∧ ∀ now, (∀ op ∈ ops, op.now ≤ now) →
      n.Matches (ops.foldl Toast.Queue.heed ⟨max s.capacity 1, s.durationSecs * 1000, []⟩)
        now := by
  have hstart := matches_start s firstId
  rw [Timestamp.signedSeconds_of_lt hseconds] at hstart
  have hfresh : ∀ t ∈ (start s firstId).toasts, t.id ∉ Notice.ids ops := fun t ht => nomatch ht
  cases ops with
  | nil => exact ⟨_, rfl, fun now _ => hstart now⟩
  | cons op ops =>
    obtain ⟨n, hrun, hall⟩ :=
      (hstart op.now).run (Notice.now_le_of_pairwise htimes) htimes hlasts hids hfresh
    exact ⟨n, hrun, fun now hpast => hall now (hpast op List.mem_cons_self) hpast⟩

/-- A notifier that matches an ideal queue acts as one. -/
theorem Matches.actsAsQueue {room : Nat} {duration now : Int} {ops : List Notice}
    (h : n.Matches (ops.foldl Toast.Queue.heed ⟨room, duration, []⟩) now) :
    n.ActsAsQueue room duration ops now := by
  have hshown : (n.expire now).toasts.Sublist n.toasts := List.filter_sublist
  have hsame := h.same now (Int.le_refl now)
  have hroom : room = n.capacity := (Toast.Queue.room_foldl_heed _ ops).symm.trans h.room
  refine ⟨hsame.symm, ?_, h.distinct.sublist (hshown.map _), ?_, ?_⟩
  · rw [← hsame]
    exact List.filter_sublist.trans (Toast.Queue.foldl_heed_sublist ⟨room, duration, []⟩ ops)
  · rw [hroom]
    exact Nat.le_trans hshown.length_le h.length_le
  · intro id level message description n' hn' hspace t ht
    rw [heed_push] at hn'
    split at hn'
    · cases hn'
      obtain ⟨dead, hkept, _⟩ := h.exists_kept
      have hfree := Nat.lt_of_lt_of_eq hspace
        (Toast.Queue.room_foldl_heed ⟨room, duration, []⟩ ops).symm
      rw [← hsame] at hfree ht
      have hall : ((ops.foldl Toast.Queue.heed ⟨room, duration, []⟩).passed now).kept =
          ((ops.foldl Toast.Queue.heed ⟨room, duration, []⟩).passed now).toasts := if_pos hfree
      rw [hkept, hall]
      exact List.mem_append_left _ (List.mem_append_right _ ht)
    · cases hn'

/-- A notifier acts as an ideal queue, whatever is asked of it in the course of time, if
messages have identifiers of their own and are to be shown until instants of the calendar.  When
someone looked makes no difference, and a message that is dismissed while it is shown is there
to be dismissed once. -/
theorem acts_as_queue {s : NotificationSettings} {firstId : Uuid} {ops : List Notice}
    (hseconds : s.durationSecs < 2 ^ 63) (htimes : ops.Pairwise fun x y => x.now ≤ y.now)
    (hlasts : ∀ op ∈ ops, op.Lasts (s.durationSecs * 1000)) (hids : (Notice.ids ops).Nodup) :
    ∃ n, ops.foldlM heed (start s firstId) = .ok n ∧
      (∀ now, (∀ op ∈ ops, op.now ≤ now) → n.ActsAsQueue (max s.capacity 1)
        (s.durationSecs * 1000) ops now) ∧
      (∀ ops' : List Notice, ops'.Pairwise (fun x y => x.now ≤ y.now) →
        (ops'.filter fun op => !op.isLook) = (ops.filter fun op => !op.isLook) →
          ∃ n', ops'.foldlM heed (start s firstId) = .ok n' ∧
            ∀ now, (∀ op ∈ ops ++ ops', op.now ≤ now) →
            (n'.expire now).toasts = (n.expire now).toasts) ∧
      ∀ before now id later n₀, ops = before ++ .dismiss now id :: later →
        before.foldlM heed (start s firstId) = .ok n₀ → id ∈ (n₀.expire now).toasts.map (·.id) →
          (n₀.dismiss id).1 = true ∧ (n.dismiss id).1 = false := by
  obtain ⟨n, hrun, hall⟩ := start_matches firstId hseconds htimes hlasts hids
  refine ⟨n, hrun, fun now hpast => (hall now hpast).actsAsQueue, ?_, ?_⟩
  · intro ops' htimes' hsame
    have hids' : (Notice.ids ops').Nodup := by
      rwa [← Notice.ids_filter, hsame, Notice.ids_filter]
    have hlasts' : ∀ op ∈ ops', op.Lasts (s.durationSecs * 1000) := by
      intro op hop
      cases hlook : op.isLook with
      | true =>
        cases op with
        | look now => trivial
        | _ => cases hlook
      | false =>
        have hmem : op ∈ ops'.filter fun op => !op.isLook :=
          List.mem_filter.mpr ⟨hop, by simp [hlook]⟩
        rw [hsame] at hmem
        exact hlasts op (List.mem_filter.mp hmem).1
    obtain ⟨n', hrun', hall'⟩ := start_matches firstId hseconds htimes' hlasts' hids'
    refine ⟨n', hrun', fun now hpast => ?_⟩
    obtain ⟨hpast₁, hpast₂⟩ := List.forall_mem_append.mp hpast
    rw [← (hall now hpast₁).same now (Int.le_refl now), ← (hall' now hpast₂).same now
      (Int.le_refl now), Toast.Queue.passed_foldl_isLook _ htimes hpast₁,
      Toast.Queue.passed_foldl_isLook _ htimes' hpast₂, hsame]
  · intro before now id later n₀ hsplit hbefore hshown
    obtain ⟨t, ht, rfl⟩ := List.mem_map.mp hshown
    have hmem : t ∈ n₀.toasts := (List.mem_filter.mp ht).1
    refine ⟨List.any_eq_true.mpr ⟨t, hmem, by simp⟩, ?_⟩
    rw [hsplit, List.foldlM_append, hbefore] at hrun
    rw [hsplit, Notice.ids_append, Notice.ids_cons, List.nodup_append] at hids
    have hadded : t.id ∈ Notice.ids before :=
      (mem_of_foldlM hbefore hmem).resolve_left (fun h => nomatch h)
    rw [Notifier.dismiss, List.any_eq_false]
    intro u hu heq
    rcases mem_of_foldlM (n := (n₀.dismiss t.id).2) hrun hu with hold | hlater
    · simp only [Notifier.dismiss, List.mem_filter] at hold
      simp [of_decide_eq_true heq] at hold
    · rw [of_decide_eq_true heq] at hlater
      exact hids.2.2 _ hadded _ (List.mem_append_right _ hlater) rfl

/-- There is room for two messages, and the first of three has expired, unseen, when
the third is added. -/
theorem acts_as_queue_unseen :
    let ops : List Notice := [.push 0 ⟨1⟩ .error "a" none, .push 2000 ⟨2⟩ .error "b" none,
      .push 3500 ⟨3⟩ .success "c" none, .look 4000]
    ∃ n, ops.foldlM heed (start { capacity := 2, durationSecs := 3 } ⟨0⟩) = .ok n ∧
      n.ActsAsQueue 2 3000 ops 4000 ∧
      (n.expire 4000).toasts.map (·.message) = ["b", "c"] := by
  intro ops
  obtain ⟨n, hrun, hacts, _⟩ :=
    @acts_as_queue { capacity := 2, durationSecs := 3 } ⟨0⟩ ops (by decide) (by decide)
    (by decide +kernel) (by decide)
  refine ⟨n, hrun, hacts 4000 (by decide), ?_⟩
  rw [(hacts 4000 (by decide)).shows]
  decide

end Notifier

end HouseBoard
