/-
HouseBoard.Proofs.Tidy — numbers are given out once.

A board is tidy when no number that is still to be given out is in use, and no view has two
tasks or two holders.  A board is housed when each slot has a task that looks after it.  Every
step keeps a board tidy, and every step but a fall keeps it housed.  `Step.fate` lists what can
become of one view of a tidy board in one step, and `Step.origin` where a task comes from that
is there after it; an invariant of tasks and slots is proved along one of these lists.
-/
import Mathlib.Data.List.Nodup
import HouseBoard.Proofs.Chronicle

namespace HouseBoard

/-! ## Section 1 — tidy boards -/

namespace Board

/-- Numbers that were not given out are not in use, and no number is in use twice. -/
structure Tidy (b : Board) : Prop where
  tasks_nodup : (b.tasks.map (·.id)).Nodup
  tasks_lt : ∀ t ∈ b.tasks, t.id < b.nextId
  slots_lt : ∀ id, b.nextId ≤ id → b.store.get? id = none
  handles_nodup : b.handles.Nodup
  handles_lt : ∀ id ∈ b.handles, id < b.nextId

variable {b b' : Board}

/-- A number that has a slot was given out. -/
theorem Tidy.lt_of_get? (hb : b.Tidy) {id : ViewId} {slot : Slot}
    (hslot : b.store.get? id = some slot) : id < b.nextId := by
  refine Nat.lt_of_not_le fun hle => ?_
  rw [hb.slots_lt id hle] at hslot
  cases hslot

/-- A number that was not given out has no task. -/
theorem Tidy.task?_eq_none (hb : b.Tidy) {id : ViewId} (hid : b.nextId ≤ id) :
    b.task? id = none := by
  cases ht : b.task? id with
  | none => rfl
  | some t =>
    have hlt := hb.tasks_lt t (task?_mem ht)
    rw [task?_id ht] at hlt
    exact absurd hlt (Nat.not_lt_of_le hid)

/-- The task of a view is found under its number. -/
theorem Tidy.task?_of_mem (hb : b.Tidy) {t : ViewTask} (ht : t ∈ b.tasks) :
    b.task? t.id = some t := by
  have hnodup := hb.tasks_nodup
  unfold task?
  generalize b.tasks = ts at ht hnodup
  induction ts with
  | nil => cases ht
  | cons u us ih =>
    obtain ⟨hu, hus⟩ := List.nodup_cons.mp hnodup
    rcases List.mem_cons.mp ht with rfl | hmem
    · simp
    · have hne : u.id ≠ t.id := fun h => hu (List.mem_map.mpr ⟨t, hmem, h.symm⟩)
      simpa [List.find?_cons, hne] using ih hmem hus

/-- A board on which nothing is new is as tidy as it was. -/
theorem Tidy.of_sublist (hb : b.Tidy)
    (htasks : (b'.tasks.map (·.id)).Sublist (b.tasks.map (·.id)))
    (hstore : ∀ id, b.store.get? id = none → b'.store.get? id = none)
    (hhandles : b'.handles.Sublist b.handles) (hnext : b'.nextId = b.nextId) : b'.Tidy where
  tasks_nodup := hb.tasks_nodup.sublist htasks
  tasks_lt := by
    intro t ht
    obtain ⟨u, hu, hid⟩ := List.mem_map.mp (htasks.subset (List.mem_map_of_mem ht))
    rw [hnext, ← hid]
    exact hb.tasks_lt u hu
  slots_lt := by
    intro id hid
    exact hstore id (hb.slots_lt id (hnext ▸ hid))
  handles_nodup := hb.handles_nodup.sublist hhandles
  handles_lt := by
    intro id hid
    rw [hnext]
    exact hb.handles_lt id (hhandles.subset hid)

/-- A board on which a view is mounted under the next number is tidy. -/
theorem Tidy.of_mount (hb : b.Tidy) (kind : ViewKind)
    (htasks : b'.tasks = (b.mount kind).2.tasks) (hstore : b'.store = (b.mount kind).2.store)
    (hhandles : b'.handles.Perm (b.nextId :: b.handles))
    (hnext : b'.nextId = b.nextId + 1) : b'.Tidy where
  tasks_nodup := by
    rw [htasks, mount, List.map_append, List.nodup_append]
    refine ⟨hb.tasks_nodup, by simp, ?_⟩
    intro i hi j hj
    obtain ⟨t, ht, rfl⟩ := List.mem_map.mp hi
    obtain rfl : j = b.nextId := by simpa using hj
    exact Nat.ne_of_lt (hb.tasks_lt t ht)
  tasks_lt := by
    intro t ht
    rw [htasks, mount] at ht
    rcases List.mem_append.mp ht with ht | ht
    · rw [hnext]
      exact Nat.lt_succ_of_lt (hb.tasks_lt t ht)
    · cases List.mem_singleton.mp ht
      rw [hnext]
      exact Nat.lt_succ_self _
  slots_lt := by
    intro id hid
    rw [hnext] at hid
    rw [hstore, mount, Store.get?_put, if_neg (Nat.ne_of_gt hid)]
    exact hb.slots_lt id (Nat.le_of_succ_le hid)
  handles_nodup := by
    refine hhandles.nodup_iff.mpr (List.nodup_cons.mpr ⟨?_, hb.handles_nodup⟩)
    intro hmem
    exact Nat.lt_irrefl _ (hb.handles_lt _ hmem)
  handles_lt := by
    intro id hid
    rw [hnext]
    rcases List.mem_cons.mp (hhandles.subset hid) with rfl | hmem
    · exact Nat.lt_succ_self _
    · exact Nat.lt_succ_of_lt (hb.handles_lt id hmem)

theorem tidy_start (s : Settings) (intervals : Intervals) (wall : Int) (firstToast : Uuid) :
    (start s intervals wall firstToast).Tidy where
  tasks_nodup := List.nodup_nil
  tasks_lt := fun _ ht => nomatch ht
  slots_lt := fun _ _ => rfl
  handles_nodup := List.nodup_nil
  handles_lt := fun _ hid => nomatch hid

/-! ## Section 2 — housed boards -/

/-- Each slot has a task. -/
def Housed (b : Board) : Prop :=
  ∀ id slot, b.store.get? id = some slot → ∃ t, b.task? id = some t

theorem housed_start (s : Settings) (intervals : Intervals) (wall : Int) (firstToast : Uuid) :
    (start s intervals wall firstToast).Housed := fun _ _ h => nomatch h

end Board

/-! ## Section 3 — steps -/

namespace Step

variable {b b' : Board} {x : Happening}

/-- The tasks of a board that is changed at one task have the same numbers. -/
theorem map_id_change (ts : List ViewTask) {id : ViewId} {f : ViewTask → ViewTask}
    (hf : ∀ u, u.id = id → (f u).id = id) :
    (ts.map fun u => if u.id = id then f u else u).map (·.id) = ts.map (·.id) := by
  rw [List.map_map, List.map_inj_left]
  intro u _
  by_cases hu : u.id = id
  · simp [hu, hf u hu]
  · simp [hu]

theorem sublist_change (ts : List ViewTask) {id : ViewId} {f : ViewTask → ViewTask}
    (hf : ∀ u, u.id = id → (f u).id = id) :
    ((ts.map fun u => if u.id = id then f u else u).map (·.id)).Sublist (ts.map (·.id)) := by
  rw [map_id_change ts hf]

/-- Every step keeps a board tidy. -/
theorem tidy (h : Step b x b') (hb : b.Tidy) : b'.Tidy := by
  cases h with
  | attend e =>
    obtain ⟨htasks, hstore, hheld, hmounted, hnext, _⟩ := b.attend_frame e
    refine hb.of_sublist ?_ ?_ ?_ hnext
    · rw [htasks]
    · rw [hstore]
      exact fun _ h => h
    · rw [Board.handles, hheld, hmounted]
      exact List.Sublist.refl _
  | hold kind => exact hb.of_mount kind rfl rfl (List.Perm.refl _) rfl
  | @ensure kind hkind =>
    rw [Board.ensureMounted_of_none hkind]
    refine hb.of_mount kind rfl rfl ?_ rfl
    simp only [Board.handles, Board.mount, List.map_append, List.map_cons, List.map_nil]
    rw [← List.append_assoc]
    exact List.perm_append_singleton _ _
  | @release id hid =>
    rw [Board.release_of_mem hid]
    refine hb.of_sublist ?_ (fun _ h => h) ?_ rfl
    · exact sublist_change b.tasks fun _ hu => hu
    · exact List.Sublist.append List.erase_sublist (List.Sublist.refl _)
  | @abandon kind id hkind =>
    refine hb.of_sublist ?_ (fun _ h => h) ?_ rfl
    · exact sublist_change b.tasks fun _ hu => hu
    · exact List.Sublist.append (List.Sublist.refl _) (List.filter_sublist.map _)
  | @leave id t ht hcancelled =>
    refine hb.of_sublist (List.filter_sublist.map _) ?_ (List.Sublist.refl _) rfl
    intro j hj
    refine (Store.get?_remove b.store id j).trans ?_
    rw [hj, ite_self]
  | @move id t m ht hcancelled hm hperforms =>
    rw [Board.move_of_performs ht hperforms]
    refine hb.of_sublist ?_ ?_ (List.Sublist.refl _) rfl
    · exact sublist_change b.tasks fun _ _ => (b.turn_id t m).trans (Board.task?_id ht)
    · intro j hj
      refine (Store.get?_update b.store id j _).trans ?_
      rw [hj, Option.map_none, ite_self]
  | @fall id t m ht hcancelled hm hperforms =>
    obtain ⟨es, _, hes⟩ := Board.move_of_not_performs ht hperforms
    rw [hes]
    refine hb.of_sublist (List.filter_sublist.map _) ?_ (List.Sublist.refl _) rfl
    intro j hj
    refine (Store.get?_update b.store id j _).trans ?_
    rw [hj, Option.map_none, ite_self]
  | pass hn hsleeps =>
    exact hb.of_sublist (List.Sublist.refl _) (fun _ h => h) (List.Sublist.refl _) rfl

/-- Nobody holds a view that was given up. -/
theorem not_mem_handles_of_dropped {id : ViewId} (h : Step b (.dropped id) b') (hb : b.Tidy) :
    id ∉ b'.handles := by
  obtain ⟨hheld, hmounted, hdisjoint⟩ := List.nodup_append.mp hb.handles_nodup
  cases h with
  | release hid =>
    rw [Board.release_of_mem hid]
    intro hmem
    rcases List.mem_append.mp hmem with hmem | hmem
    · exact (hheld.mem_erase_iff.mp hmem).1 rfl
    · exact hdisjoint id hid id hmem rfl
  | @abandon kind _ hkind =>
    have hentry := Board.mem_of_lookup hkind
    intro hmem
    rcases List.mem_append.mp hmem with hmem | hmem
    · exact hdisjoint id hmem id (List.mem_map_of_mem (f := (·.2)) hentry) rfl
    · obtain ⟨e, he, heq⟩ := List.mem_map.mp hmem
      obtain ⟨he, hne⟩ := List.mem_filter.mp he
      -- no two kinds have the same view
      have hsame : e = (kind, id) := List.inj_on_of_nodup_map hmounted he hentry heq
      rw [hsame] at hne
      simp at hne

end Step

/-! ## Section 4 — what becomes of a view -/

/-- What becomes of a view in a step. -/
inductive Board.Fate (b : Board) (id : ViewId) (b' : Board) : Happening → Prop where
  /-- The step concerns another view, or none. -/
  | other {x : Happening} (hx : x.isOf id = false) (htask : b'.task? id = b.task? id)
      (hslot : b'.store.get? id = b.store.get? id) : Fate b id b' x
  | mounted {kind : ViewKind} {stamp : Nat} (hid : id = b.nextId)
      (htask : b'.task? id = some
        { id, kind, poll := ⟨b.now, some stamp⟩, tick := ⟨b.now + b.intervals.tick, none⟩ })
      (hslot : b'.store.get? id = some { kind }) : Fate b id b' (.mounted id kind b.now)
  | dropped (hheld : id ∈ b.handles)
      (htask : b'.task? id = (b.task? id).map fun t => { t with cancelled := true })
      (hslot : b'.store.get? id = b.store.get? id) : Fate b id b' (.dropped id)
  | left {t : ViewTask} (ht : b.task? id = some t) (hcancelled : t.cancelled = true)
      (htask : b'.task? id = none) (hslot : b'.store.get? id = none) : Fate b id b' (.left id)
  | moved {t : ViewTask} {m : Move} (ht : b.task? id = some t)
      (hcancelled : t.cancelled = false) (hallows : t.Allows b.now m)
      (htask : b'.task? id = some (b.turn t m).1)
      (hslot : b'.store.get? id =
        (b.store.get? id).map fun slot =>
          (b.turn t m).2.effects.foldl (Slot.take b.wall) slot) :
      Fate b id b'
        (.moved id m b.moment (b.turn t m).2.effects
          (t.fetch.isSome && (b.turn t m).1.fetch.isNone))
  | fell {t : ViewTask} {m : Move} {es : List Effect} (ht : b.task? id = some t)
      (hcancelled : t.cancelled = false) (hpart : es <+: (b.turn t m).2.effects)
      (htask : b'.task? id = none)
      (hslot : b'.store.get? id = (b.store.get? id).map fun slot =>
        es.foldl (Slot.take b.wall) slot) :
      Fate b id b' (.fell id b.moment)

/-- Where the task comes from that a view has after a step. -/
inductive Board.Origin (b : Board) (id : ViewId) (b' : Board) :
    ViewTask → Happening → Prop where
  /-- The step concerns another view, or none. -/
  | other {t : ViewTask} {x : Happening} (hx : x.isOf id = false) (ht : b.task? id = some t)
      (hslot : b'.store.get? id = b.store.get? id) : Origin b id b' t x
  | mounted {kind : ViewKind} {stamp : Nat} (hid : id = b.nextId)
      (hslot : b'.store.get? id = some { kind }) :
      Origin b id b' { id, kind, poll := ⟨b.now, some stamp⟩,
                       tick := ⟨b.now + b.intervals.tick, none⟩ }
        (.mounted id kind b.now)
  | dropped {t : ViewTask} (ht : b.task? id = some t)
      (hslot : b'.store.get? id = b.store.get? id) :
      Origin b id b' { t with cancelled := true } (.dropped id)
  | moved {t : ViewTask} {m : Move} (ht : b.task? id = some t) (hallows : t.Allows b.now m)
      (hslot : b'.store.get? id =
        (b.store.get? id).map fun slot =>
          (b.turn t m).2.effects.foldl (Slot.take b.wall) slot) :
      Origin b id b' (b.turn t m).1
        (.moved id m b.moment (b.turn t m).2.effects
          (t.fetch.isSome && (b.turn t m).1.fetch.isNone))

namespace Step

variable {b b' : Board} {x : Happening}

/-- What can become of a view in a step. -/
theorem fate (h : Step b x b') (hb : b.Tidy) (id : ViewId) : b.Fate id b' x := by
  cases hx : x.isOf id with
  | false =>
    obtain ⟨htask, hslot, _⟩ := h.frame hx
    exact .other hx htask hslot
  | true =>
    simp only [Happening.isOf, beq_iff_eq] at hx
    cases x with
    | mounted j kind n =>
      cases hx
      obtain ⟨hid, rfl, _, hslot, stamp, htask⟩ := h.of_mounted
      rw [hb.task?_eq_none (Nat.le_of_eq hid.symm), Option.none_or] at htask
      exact .mounted hid htask hslot
    | dropped j =>
      cases hx
      obtain ⟨hheld, htask, hstore, _⟩ := h.of_dropped
      exact .dropped hheld htask (by rw [hstore])
    | left j =>
      cases hx
      obtain ⟨⟨t, ht, hcancelled⟩, htask, hslot, _⟩ := h.of_left
      exact .left ht hcancelled htask hslot
    | moved j m w es ended =>
      cases hx
      obtain ⟨t, ht, hcancelled, hallows, rfl, rfl, rfl, htask, hslot, _⟩ := h.of_moved
      exact .moved ht hcancelled hallows htask hslot
    | fell j w =>
      cases hx
      obtain ⟨rfl, htask, _, t, m, es, ht, hcancelled, hpart, hslot⟩ := h.of_fell
      exact .fell ht hcancelled hpart htask hslot
    | attended e wall => cases hx
    | passed n => cases hx

/-- A view that has a task after a step is new, or its task has stayed, was given up
or has moved. -/
theorem origin {id : ViewId} {t' : ViewTask} (h : Step b x b') (hb : b.Tidy)
    (ht' : b'.task? id = some t') : b.Origin id b' t' x := by
  cases h.fate hb id with
  | other hx htask hslot => exact .other hx (htask ▸ ht') hslot
  | mounted hid htask hslot =>
    rw [htask] at ht'
    cases ht'
    exact .mounted hid hslot
  | dropped hheld htask hslot =>
    rw [htask] at ht'
    obtain ⟨t, ht, rfl⟩ := Option.map_eq_some_iff.mp ht'
    exact .dropped ht hslot
  | left ht hcancelled htask =>
    rw [htask] at ht'
    cases ht'
  | moved ht hcancelled hallows htask hslot =>
    rw [htask] at ht'
    cases ht'
    exact .moved ht hallows hslot
  | fell ht hcancelled hpart htask =>
    rw [htask] at ht'
    cases ht'

/-- What happens to a view happens after its number was given out. -/
theorem lt_of_isOf {id : ViewId} (h : Step b x b') (hb : b.Tidy) (hx : x.isOf id = true) :
    id < b'.nextId := by
  have hle := h.nextId_le
  have hlt {t : ViewTask} (ht : b.task? id = some t) : id < b'.nextId := by
    rw [← Board.task?_id ht]
    exact Nat.lt_of_lt_of_le (hb.tasks_lt t (Board.task?_mem ht)) hle
  cases h.fate hb id with
  | other hother =>
    rw [hx] at hother
    cases hother
  | mounted hid =>
    obtain ⟨_, _, hnext, _⟩ := h.of_mounted
    rw [hnext, hid]
    exact Nat.lt_succ_self _
  | dropped hheld => exact Nat.lt_of_lt_of_le (hb.handles_lt id hheld) hle
  | left ht => exact hlt ht
  | moved ht => exact hlt ht
  | fell ht => exact hlt ht

/-- The slot of a view that was mounted does not come back once it is gone. -/
theorem get?_eq_none {id : ViewId} (h : Step b x b') (hb : b.Tidy) (hid : id < b.nextId)
    (hnone : b.store.get? id = none) : b'.store.get? id = none := by
  cases h.fate hb id with
  | other hx htask hslot => rw [hslot, hnone]
  | mounted hnext => exact absurd hnext (Nat.ne_of_lt hid)
  | dropped hheld htask hslot => rw [hslot, hnone]
  | left ht hcancelled htask hslot => exact hslot
  | moved ht hcancelled hallows htask hslot => rw [hslot, hnone, Option.map_none]
  | fell ht hcancelled hpart htask hslot => rw [hslot, hnone, Option.map_none]

/-- Every step but a fall keeps a board housed. -/
theorem housed (h : Step b x b') (htidy : b.Tidy) (hx : x.isFall = false) (hb : b.Housed) :
    b'.Housed := by
  intro id slot hslot'
  cases h.fate htidy id with
  | other hother htask hslot =>
    rw [htask]
    exact hb id slot (hslot ▸ hslot')
  | mounted hid htask => exact ⟨_, htask⟩
  | dropped hheld htask hslot =>
    obtain ⟨t, ht⟩ := hb id slot (hslot ▸ hslot')
    exact ⟨_, htask.trans (congrArg _ ht)⟩
  | left ht hcancelled htask hslot =>
    rw [hslot] at hslot'
    cases hslot'
  | moved ht hcancelled hallows htask => exact ⟨_, htask⟩
  | fell => cases hx

end Step

/-- A view stands on a board as it does when it has just been mounted. -/
structure Board.JustMounted (b : Board) (id : ViewId) (kind : ViewKind)
    (mounted : Nat) : Prop where
  now_eq : b.now = mounted
  lt : id < b.nextId
  slot : b.store.get? id = some { kind }
  task : ∃ stamp, b.task? id = some
    { id, kind, poll := ⟨mounted, some stamp⟩, tick := ⟨mounted + b.intervals.tick, none⟩ }

theorem Step.justMounted {b b' : Board} {id : ViewId} {kind : ViewKind} {mounted : Nat}
    (h : Step b (.mounted id kind mounted) b') (hb : b.Tidy) :
    b'.JustMounted id kind mounted := by
  obtain ⟨hid, hnow, hnext, hslot, stamp, htask⟩ := h.of_mounted
  rw [hb.task?_eq_none (Nat.le_of_eq hid.symm), Option.none_or] at htask
  refine ⟨?_, ?_, hslot, stamp, ?_⟩
  · rw [h.now_eq (by simp), hnow]
  · rw [hnext, hid]
    exact Nat.lt_succ_self _
  · rw [htask, hnow, h.settings_eq.1]

/-! ## Section 5 — runs -/

namespace Run

variable {b b' : Board} {h : List Happening} {id : ViewId}

theorem tidy (hrun : Run b h b') (hb : b.Tidy) : b'.Tidy :=
  hrun.preserves (fun _ _ _ hb hstep => hstep.tidy hb) hb

theorem housed (hrun : Run b h b') (htidy : b.Tidy) (hno : ∀ x ∈ h, x.isFall = false)
    (hb : b.Housed) : b'.Housed := by
  induction hrun with
  | refl => exact hb
  | step hrun₁ hstep ih =>
    exact hstep.housed (hrun₁.tidy htidy) (hno _ (by simp))
      (ih fun y hy => hno y (List.mem_append_left _ hy))

/-- Numbers are given out in order. -/
theorem nextId_le (hrun : Run b h b') : b.nextId ≤ b'.nextId := by
  induction hrun with
  | refl => exact Nat.le_refl _
  | step _ hstep ih => exact Nat.le_trans ih hstep.nextId_le

/-- What is set at the start does not change. -/
theorem settings_eq (hrun : Run b h b') :
    b'.intervals = b.intervals ∧ b'.policy = b.policy := by
  induction hrun with
  | refl => exact ⟨rfl, rfl⟩
  | step _ hstep ih => exact ⟨hstep.settings_eq.1.trans ih.1, hstep.settings_eq.2.trans ih.2⟩

/-- Nothing happens to a view before its number is given out. -/
theorem isOf_eq_false (hrun : Run b h b') (hb : b.Tidy) (hid : b'.nextId ≤ id) :
    ∀ x ∈ h, x.isOf id = false := by
  induction hrun with
  | refl => simp
  | @step b₁ b₂ h₁ x hrun₁ hstep ih =>
    have hle := Nat.le_trans hstep.nextId_le hid
    intro y hy
    rcases List.mem_append.mp hy with hy | hy
    · exact ih hle y hy
    · cases List.mem_singleton.mp hy
      cases hx : x.isOf id with
      | false => rfl
      | true => exact absurd (hstep.lt_of_isOf (hrun₁.tidy hb) hx) (Nat.not_lt_of_le hid)

/-- A run in which a view is mounted does so on a board where nothing has happened to
the view before. -/
theorem exists_mounting {kind : ViewKind} {mounted : Nat} (hrun : Run b h b') (hb : b.Tidy)
    (hmounted : .mounted id kind mounted ∈ h) :
    ∃ h₁ h₂ b₂, h = h₁ ++ .mounted id kind mounted :: h₂ ∧ (∀ x ∈ h₁, x.isOf id = false) ∧
      Run b (h₁ ++ [.mounted id kind mounted]) b₂ ∧ b₂.JustMounted id kind mounted ∧
      Run b₂ h₂ b' := by
  obtain ⟨h₁, h₂, b₁, b₂, rfl, hrun₁, hstep, hrun₂⟩ := hrun.exists_step_of_mem hmounted
  have hothers := hrun₁.isOf_eq_false hb (Nat.le_of_eq hstep.of_mounted.1.symm)
  exact ⟨h₁, h₂, b₂, rfl, hothers, hrun₁.step hstep, hstep.justMounted (hrun₁.tidy hb), hrun₂⟩

end Run

end HouseBoard
