/-
HouseBoard.Proofs.Roster — the views that are counted are those that are there.

Four places know of the mounted views: the store has their slots, each has a task, health has
their number, and those that were mounted on behalf of callers are found under their kinds.
They change at different moments, by mounting, by giving up and by the end of a task.  Section 1
counts the slots of a store, Section 2 says that a store never has two slots of one number, and
Section 3 that numbers are given out in order.  The main statement puts this together with the
census of the tasks: while no task falls, all four places tell of the same views.
-/
import Mathlib.Data.Set.Card
import HouseBoard.Proofs.Alive
import HouseBoard.Proofs.Typing

namespace HouseBoard

/-! ## Section 1 — the slots of a store -/

namespace Store

/-- The numbers of the slots. -/
def ids (s : Store) : List ViewId := s.slots.map (·.1)

theorem ids_remove (s : Store) (id : ViewId) : (s.remove id).ids = s.ids.filter (· ≠ id) := by
  simp only [ids, remove, List.filter_map]
  rfl

theorem ids_put (s : Store) (id : ViewId) (slot : Slot) :
    (s.put id slot).ids = s.ids.filter (· ≠ id) ++ [id] := by
  rw [← ids_remove]
  simp [ids, put]

theorem ids_update (s : Store) (id : ViewId) (f : Slot → Slot) :
    (s.update id f).ids = s.ids := by
  simp only [ids, update, List.map_map, List.map_inj_left, Function.comp_apply]
  intro e _
  split <;> rfl

/-- If no number has two slots, the slots are what is found. -/
theorem get?_eq_some_iff {s : Store} (hs : s.ids.Nodup) {id : ViewId} {slot : Slot} :
    s.get? id = some slot ↔ (id, slot) ∈ s.slots := by
  constructor
  · intro h
    obtain ⟨l₁, l₂, heq, _⟩ := List.lookup_eq_some_iff.mp h
    simp [heq]
  · intro h
    obtain ⟨l₁, l₂, heq⟩ := List.append_of_mem h
    refine List.lookup_eq_some_iff.mpr ⟨l₁, l₂, heq, ?_⟩
    intro e he
    rw [ids, heq, List.map_append, List.nodup_append] at hs
    have hne := hs.2.2 e.1 (List.mem_map_of_mem he) id (by simp)
    simpa using Ne.symm hne

/-- If no number has two slots, as many numbers have a slot of some sort as there
are such slots. -/
theorem ncard_eq_countP {s : Store} (hs : s.ids.Nodup) (p : Slot → Bool) :
    {id | ∃ slot, s.get? id = some slot ∧ p slot = true}.ncard = s.slots.countP
      fun e => p e.2 := by
  have hset : {id | ∃ slot, s.get? id = some slot ∧ p slot = true} =
      ↑((s.slots.filter fun e => p e.2).map (·.1)).toFinset := by
    ext id
    simp [get?_eq_some_iff hs]
  have hnodup : ((s.slots.filter fun e => p e.2).map (·.1)).Nodup :=
    hs.sublist (List.filter_sublist.map _)
  rw [hset, Set.ncard_coe_finset, List.toFinset_card_of_nodup hnodup, List.length_map,
    List.countP_eq_length_filter]

end Store

/-! ## Section 2 — no number has two slots -/

theorem Step.ids_nodup {b b' : Board} {x : Happening} (h : Step b x b')
    (hb : b.store.ids.Nodup) : b'.store.ids.Nodup := by
  have hmount (kind : ViewKind) : (b.mount kind).2.store.ids.Nodup := by
    simp only [Board.mount, Store.ids_put]
    rw [List.nodup_append]
    refine ⟨hb.filter _, by simp, ?_⟩
    intro i hi j hj
    rw [List.mem_singleton.mp hj]
    simpa using (List.mem_filter.mp hi).2
  cases h with
  | attend e =>
    rw [(b.attend_frame e).2.1]
    exact hb
  | hold kind => exact hmount kind
  | @ensure kind hkind =>
    rw [Board.ensureMounted_of_none hkind]
    exact hmount kind
  | release hid =>
    rw [Board.release_of_mem hid]
    exact hb
  | abandon hkind => exact hb
  | @leave id t ht hcancelled =>
    simp only [Board.finish, Store.ids_remove]
    exact hb.filter _
  | move ht hcancelled hm hperforms =>
    rw [Board.move_of_performs ht hperforms]
    simp only [Board.recorded, Board.withTask, Store.ids_update]
    exact hb
  | fall ht hcancelled hm hperforms =>
    obtain ⟨es, _, hes⟩ := Board.move_of_not_performs ht hperforms
    rw [hes]
    simp only [Board.recorded, Board.withoutTask, Store.ids_update]
    exact hb
  | pass hn hsleeps => exact hb

theorem Run.ids_nodup {b b' : Board} {h : List Happening} (hrun : Run b h b')
    (hb : b.store.ids.Nodup) :
    b'.store.ids.Nodup := hrun.preserves (fun _ _ _ hb hstep => hstep.ids_nodup hb) hb

/-! ## Section 3 — numbers are given out in order -/

/-- Each number that is given out is larger than all before it, and smaller than the
next one. -/
theorem Run.arrivals_sorted {b b' : Board} {h : List Happening} (hrun : Run b h b') :
    (Happening.arrivals h).Pairwise (· < ·) ∧ ∀ id ∈ Happening.arrivals h, id < b'.nextId := by
  induction hrun with
  | refl => exact ⟨.nil, by simp [Happening.arrivals]⟩
  | @step b₁ b₂ h₁ x hrun₁ hstep ih =>
    obtain ⟨hsorted, hlt⟩ := ih
    rw [Happening.arrivals, List.filterMap_append]
    by_cases hx : ∃ id kind n, x = .mounted id kind n
    · obtain ⟨id, kind, n, rfl⟩ := hx
      obtain ⟨rfl, _, hnext, _⟩ := hstep.of_mounted
      simp only [List.filterMap_cons, List.filterMap_nil, List.pairwise_append,
        List.pairwise_singleton, true_and, List.mem_append, List.mem_singleton, hnext]
      refine ⟨⟨hsorted, ?_⟩, ?_⟩
      · intro i hi j hj
        rw [hj]
        exact hlt i hi
      · rintro i (hi | rfl)
        · exact Nat.lt_succ_of_lt (hlt i hi)
        · exact Nat.lt_succ_self _
    · have hnone : Happening.arrivals [x] = [] := by
        cases x with
        | mounted id kind n => exact absurd ⟨id, kind, n, rfl⟩ hx
        | _ => rfl
      rw [Happening.arrivals] at hnone
      rw [hnone, List.append_nil]
      exact ⟨hsorted, fun i hi => Nat.lt_of_lt_of_le (hlt i hi) hstep.nextId_le⟩

/-! ## Section 4 — all places agree -/

namespace Board

/-- The views that have a slot. -/
def slotted (b : Board) : Set ViewId := {id | ∃ slot, b.store.get? id = some slot}

/-- The views that have a slot with a snapshot. -/
def informed (b : Board) : Set ViewId :=
  {id | ∃ slot, b.store.get? id = some slot ∧ slot.snapshot.isSome = true}

/-- The views that have a task which goes on. -/
def live (b : Board) : Set ViewId := {id | ∃ t, b.task? id = some t ∧ t.cancelled = false}

theorem ncard_slotted {b : Board} (hb : b.store.ids.Nodup) :
    b.slotted.ncard = b.store.ids.length := by
  have hcount := Store.ncard_eq_countP hb fun _ => true
  simpa [slotted, Store.ids] using hcount

theorem ncard_informed {b : Board} (hb : b.store.ids.Nodup) :
    b.informed.ncard = b.store.withData :=
  Store.ncard_eq_countP hb fun slot => slot.snapshot.isSome

/-- On a sound and housed board the slots have the numbers of the tasks. -/
theorem ids_perm {b : Board} (hb : b.store.ids.Nodup) (htidy : b.Tidy) (hsound : b.Sound)
    (hhoused : b.Housed) : b.store.ids.Perm (b.tasks.map (·.id)) := by
  refine (List.perm_ext_iff_of_nodup hb htidy.tasks_nodup).mpr fun id => ?_
  constructor
  · intro hid
    obtain ⟨⟨_, slot⟩, hmem, rfl⟩ := List.mem_map.mp hid
    obtain ⟨t, ht⟩ := hhoused _ slot ((Store.get?_eq_some_iff hb).mpr hmem)
    exact List.mem_map.mpr ⟨t, task?_mem ht, task?_id ht⟩
  · intro hid
    obtain ⟨t, ht, rfl⟩ := List.mem_map.mp hid
    obtain ⟨slot, hslot, _⟩ := hsound t.id t (htidy.task?_of_mem ht)
    exact List.mem_map.mpr ⟨_, (Store.get?_eq_some_iff hb).mp hslot, rfl⟩

/-- When all is done at an instant, the views whose task goes on are those that have a slot. -/
theorem live_eq_slotted {b : Board} (hsound : b.Sound) (hhoused : b.Housed) (hquiet : b.Quiet) :
    b.live = b.slotted := by
  ext id
  constructor
  · intro ⟨t, ht, _⟩
    obtain ⟨slot, hslot, _⟩ := hsound id t ht
    exact ⟨slot, hslot⟩
  · intro ⟨slot, hslot⟩
    obtain ⟨t, ht⟩ := hhoused id slot hslot
    exact ⟨t, ht, (hquiet t (task?_mem ht)).1⟩

end Board

/-- All that is known of the mounted views tells of the same views. -/
structure Board.Agrees (b : Board) (h : List Happening) : Prop where
  mounted_eq : b.health.mounted = b.slotted.ncard
  tasks_eq : b.tasks.length = b.slotted.ncard
  withData_eq : b.store.withData = b.informed.ncard
  /-- Tasks of views that were given up have ended when all is done. -/
  live_eq : b.Quiet → b.live = b.slotted
  /-- A view that leaves is one of those that are counted. -/
  leaves : ∀ id b', Step b (.left id) b' → b'.health.mounted + 1 = b.health.mounted
  named : ∀ kind id, b.mounted.lookup kind = some id → ∃ slot, b.store.get? id = some slot ∧
    slot.kind = kind
  apart : ∀ kind kind' id, b.mounted.lookup kind = some id →
    b.mounted.lookup kind' = some id → kind = kind'
  arrivals_sorted : (Happening.arrivals h).Pairwise (· < ·)
  arrivals_lt : ∀ id ∈ Happening.arrivals h, id < b.nextId

/-- The bookkeeping of the mounted views agrees in every run in which messages expire within the
calendar.  At each instant as many views are counted as have a slot and a task, and those with
data are those with a snapshot; what is found under a kind is a view of this kind, and of no
other one; and numbers only grow. -/
theorem Run.bookkeeping_agrees {s : Settings} {intervals : Intervals} {wall : Int}
    {firstToast : Uuid} {h : List Happening} {b : Board}
    (hrun : Run (Board.start s intervals wall firstToast) h b)
    (hcal : ∀ x ∈ h, x.InCalendar (Timestamp.signedSeconds s.notifications.durationSecs)) :
    b.Agrees h := by
  rw [← Board.lifetime_start s intervals wall firstToast] at hcal
  have hno := (hrun.isFall_eq_false hcal).1
  have htidy₀ := Board.tidy_start s intervals wall firstToast
  have htidy := hrun.tidy htidy₀
  have hsound := hrun.sound htidy₀ (Board.sound_start s intervals wall firstToast)
  have hhoused := hrun.housed htidy₀ hno (Board.housed_start s intervals wall firstToast)
  have htyped := hrun.typed htidy₀ (Board.sound_start s intervals wall firstToast)
    (Board.typed_start s intervals wall firstToast)
  have hkept := hrun.kept htidy₀ (Board.kept_start s intervals wall firstToast)
  have hcount := (hrun.census htidy₀ hno (Board.census_start s intervals wall firstToast)).count
  have hids := hrun.ids_nodup (b := Board.start s intervals wall firstToast) List.nodup_nil
  have htasks : b.tasks.length = b.slotted.ncard := by
    rw [Board.ncard_slotted hids, (Board.ids_perm hids htidy hsound hhoused).length_eq,
      List.length_map]
  obtain ⟨hsorted, hlt⟩ := hrun.arrivals_sorted
  refine ⟨hcount.trans htasks, htasks, (Board.ncard_informed hids).symm,
    Board.live_eq_slotted hsound hhoused, ?_,
    fun kind id hfound => htyped.slot_of_lookup hkept hfound, ?_, hsorted, hlt⟩
  · intro id b' hstep
    obtain ⟨⟨t, ht, _⟩, _⟩ := hstep.of_left
    have hpos := List.length_pos_of_mem (Board.task?_mem ht)
    cases hstep with
    | leave _ _ =>
      simp only [Board.finish, Health.unmount]
      omega
  · intro kind kind' id hkind hkind'
    have hnodup := (List.nodup_append.mp htidy.handles_nodup).2.1
    have hsame := List.inj_on_of_nodup_map hnodup (Board.mem_of_lookup hkind)
      (Board.mem_of_lookup hkind') rfl
    exact congrArg Prod.fst hsame

/-- A view of the alarm whose call is on its way, one of the heaters that has data, and
one that has left. -/
theorem Run.bookkeeping_of_three : ∃ (h : List Happening) (b : Board),
    Run (Board.start {} ⟨200, 50, by decide, by decide⟩ 0 ⟨0⟩) h b ∧ .left 3 ∈ h ∧ b.Quiet ∧
      b.health.mounted = 2 ∧ b.live.ncard = 2 ∧ b.informed.ncard = 1 ∧
      Happening.arrivals h = [1, 2, 3] := by
  let script : Script := { heaters := some default, delays := [(.alarm, 100)] }
  let b₀ := Board.start {} ⟨200, 50, by decide, by decide⟩ 0 ⟨0⟩
  let b₁ := ((b₀.attend (.script script)).ensureMounted .alarm).2
  let b₂ := (b₁.hold .heaters).2
  let b₃ := ((b₂.hold .heaters).2.release 3).2
  let b₄ := b₃.move 1 .poll
  let b₅ := b₄.move 2 .poll
  let b₆ := b₅.move 2 .answers
  let h : List Happening := [.attended (.script script) 0, .mounted 1 .alarm 0,
    .mounted 2 .heaters 0,
    .mounted 3 .heaters 0, .dropped 3, b₃.moving 1 .poll, b₄.moving 2 .poll,
    b₅.moving 2 .answers, .left 3]
  have hpoll : Step b₃ (b₃.moving 1 .poll) b₄ := .of_canMove (by decide +kernel)
  have hpoll' : Step b₄ (b₄.moving 2 .poll) b₅ := .of_canMove (by decide +kernel)
  have hanswers : Step b₅ (b₅.moving 2 .answers) b₆ := .of_canMove (by decide +kernel)
  have hrun : Run b₀ h (b₆.finish 3) :=
    .cons (.attend b₀ _) <| .cons (.ensure rfl) <| .cons (.hold b₁ .heaters) <|
      .cons (.hold b₂ .heaters) <|
      .cons (.release (by decide +kernel)) <| .cons hpoll <| .cons hpoll' <| .cons hanswers <|
        .single (.leave rfl rfl)
  have hcal : ∀ x ∈ h, x.InCalendar
      (Timestamp.signedSeconds ({} : Settings).notifications.durationSecs) := by
    decide +kernel
  have hquiet : (b₆.finish 3).Quiet := by decide +kernel
  have hagrees := Run.bookkeeping_agrees hrun hcal
  have hmounted : (b₆.finish 3).health.mounted = 2 := by decide +kernel
  refine ⟨h, _, hrun, by simp [h], hquiet, hmounted, ?_, ?_, rfl⟩
  · rw [hagrees.live_eq hquiet, ← hagrees.mounted_eq, hmounted]
  · rw [← hagrees.withData_eq]
    decide +kernel

end HouseBoard
