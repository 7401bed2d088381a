/-
HouseBoard.Proofs.Mounting — one view of each kind for all callers.

Callers name views by routes, and one view may have several names.  Yet all who ask for a view
of one kind are shown the same one, until someone asks that it be unmounted.  Section 1 says
that tasks that run have no part in this, and that none is lost while messages expire within the
calendar.  Section 2 tells the three things that an operation can do to the views that are found
under their kinds, and Section 3 what holds of these views in a whole session.
-/
import HouseBoard.Proofs.Access
import HouseBoard.Proofs.Alive
import HouseBoard.Proofs.Typing
import HouseBoard.Proofs.Route

namespace HouseBoard

/-! ## Section 1 — tasks that run -/

namespace Board

variable {b b' b'' : Board} {id : ViewId} {kind : ViewKind}

/-- Messages expire as they did, and if they do within the calendar no slot has lost
its task. -/
structure Sustains (b b' : Board) : Prop where
  expiry : b'.expiry = b.expiry
  housed : (∃ instant, b.expiry = .ok instant) → b.Housed → b'.Housed

/-- Tasks that ran have left alone what is found under its kind. -/
structure Ran (b b' : Board) : Prop extends b.Sustains b' where
  mounted : b'.mounted = b.mounted

theorem Sustains.refl (b : Board) : b.Sustains b := ⟨rfl, fun _ h => h⟩

theorem Sustains.trans (h : b.Sustains b') (h' : b'.Sustains b'') : b.Sustains b'' :=
  ⟨h'.expiry.trans h.expiry, fun hlasts hb => h'.housed (h.expiry ▸ hlasts)
      (h.housed hlasts hb)⟩

/-- A board with the same tasks and slots is as well housed. -/
theorem Sustains.of_same (hexpiry : b'.expiry = b.expiry) (htasks : b'.tasks = b.tasks)
    (hstore : b'.store = b.store) : b.Sustains b' := by
  refine ⟨hexpiry, fun _ hb id slot hslot => ?_⟩
  rw [hstore] at hslot
  obtain ⟨t, ht⟩ := hb id slot hslot
  exact ⟨t, by rwa [task?, htasks]⟩

theorem Ran.refl (b : Board) : b.Ran b := ⟨.refl b, rfl⟩

theorem Ran.trans (h : b.Ran b') (h' : b'.Ran b'') : b.Ran b'' :=
  ⟨h.toSustains.trans h'.toSustains, h'.mounted.trans h.mounted⟩

theorem ran_move (b : Board) (id : ViewId) (m : Move) : b.Ran (b.move id m) := by
  cases ht : b.task? id with
  | none =>
    rw [move_of_none ht]
    exact .refl b
  | some t =>
    cases hperforms : b.performs t m with
    | true =>
      refine ⟨⟨b.expiry_move id m, fun _ hb j slot hslot => ?_⟩, ?_⟩
      · rw [move_of_performs ht hperforms] at hslot ⊢
        rw [task?_withTask ((b.turn_id t m).trans (task?_id ht))]
        have hold : ∃ slot, b.store.get? j = some slot := by
          have hupdate := (Store.get?_update b.store id j _).symm.trans hslot
          split at hupdate
          · obtain ⟨slot, hget, _⟩ := Option.map_eq_some_iff.mp hupdate
            exact ⟨slot, hget⟩
          · exact ⟨slot, hupdate⟩
        obtain ⟨slot, hget⟩ := hold
        obtain ⟨u, hu⟩ := hb j slot hget
        split
        · exact ⟨_, congrArg _ hu⟩
        · exact ⟨u, hu⟩
      · rw [move_of_performs ht hperforms]
        rfl
    | false =>
      obtain ⟨hnot, _⟩ := performs_eq_false_iff.mp hperforms
      obtain ⟨es, _, hes⟩ := move_of_not_performs ht hperforms
      refine ⟨⟨b.expiry_move id m, fun hlasts _ => absurd hlasts hnot⟩, ?_⟩
      rw [hes]
      rfl

/-- A task that ends takes its slot with it. -/
theorem ran_finish (b : Board) (id : ViewId) : b.Ran (b.finish id) := by
  refine ⟨⟨rfl, fun _ hb j slot hslot => ?_⟩, rfl⟩
  rw [finish, Store.get?_remove] at hslot
  rw [task?_finish]
  by_cases hj : j = id
  · rw [if_pos hj] at hslot
    cases hslot
  · rw [if_neg hj] at hslot ⊢
    exact hb j slot hslot

/-- What tasks leave alone endures. -/
theorem endures_ran (b : Board) : Endures b.Ran where
  move s id m h := h.trans (s.ran_move id m)
  finish s id h := h.trans (s.ran_finish id)
  pass _ _ h := h.trans ⟨.of_same rfl rfl rfl, rfl⟩

theorem ran_settle (b : Board) : b.Ran b.settle := b.endures_ran.settle (.refl b)

/-- An errand changes nothing of views, and only the clock may change when messages expire. -/
theorem ran_attend (b : Board) {e : Errand} (hclock : ∀ wall, e ≠ .clock wall) :
    b.Ran (b.attend e) := by
  obtain ⟨htasks, hstore, _, hmounted, _⟩ := b.attend_frame e
  have hlifetime := (Step.attend b e).lifetime_eq
  have hwall : (b.attend e).wall = b.wall := by
    cases e with
    | clock wall => exact absurd rfl (hclock wall)
    | report e =>
      simp only [attend, report]
      split <;> rfl
    | _ => rfl
  exact ⟨.of_same (by rw [expiry, expiry, hlifetime, hwall]) htasks hstore, hmounted⟩

theorem ran_sendCommand (b : Board) (did : DeviceRef) (command : Command) :
    b.Ran (b.sendCommand did command).2 := by
  have hcall := b.ran_attend (e := .call (.command did command)) (by simp)
  obtain ⟨b₁, hwait, hsend⟩ := b.sendCommand_cases did command
  have hran : b.Ran b₁ := by
    rcases hwait with rfl | ⟨ms, rfl⟩
    · exact hcall
    · exact b.endures_ran.reach _ hcall
  rw [hsend]
  exact hran.trans (b₁.ran_attend (e := .reply (.command did command)) (by simp))

theorem ran_command (b : Board) (did : DeviceRef) (command : Command) :
    b.Ran (b.command did command).2 := by
  have hsend := b.ran_sendCommand did command
  rcases b.command_cases did command with heq | ⟨e, heq⟩
  · rw [heq]
    exact hsend
  · rw [heq]
    exact hsend.trans (ran_attend _ (e := .report e) (by simp))

/-! ## Section 2 — what is found under its kind -/

end Board

/-- What is asked for is that the view of a kind be unmounted. -/
def Operation.Unmounts (kind : ViewKind) : Operation → Prop
  | .request r => ∃ text, r.AsksFor "DELETE" text ∧ ViewKind.ofRoute? text = some kind
  | _ => False

/-- What an operation does to the views that are found under their kinds. -/
inductive Board.Listed (b : Board) (op : Operation) (b' : Board) : Prop where
  | same (h : b'.mounted = b.mounted)
  | entered {kind : ViewKind} (hkind : b.mounted.lookup kind = none)
      (h : b'.mounted = b.mounted ++ [(kind, b.nextId)])
  | struck {kind : ViewKind} (hop : op.Unmounts kind)
      (h : b'.mounted = b.mounted.filter fun e => e.1 ≠ kind)

namespace Board

variable {b b' b'' : Board} {op : Operation} {id : ViewId} {kind : ViewKind}

/-- What an operation leaves of a board: it lists one view more or less at most, and
sustains the others. -/
structure Follows (b : Board) (op : Operation) (b' : Board) : Prop extends b.Sustains b' where
  listed : b.Listed op b'

theorem Ran.follows (h : b.Ran b') (op : Operation) : b.Follows op b' :=
  ⟨h.toSustains, .same h.mounted⟩

theorem Follows.ran (h : b.Follows op b') (h' : b'.Ran b'') : b.Follows op b'' := by
  refine ⟨h.toSustains.trans h'.toSustains, ?_⟩
  cases h.listed with
  | same h => exact .same (h'.mounted.trans h)
  | entered hkind h => exact .entered hkind (h'.mounted.trans h)
  | struck hop h => exact .struck hop (h'.mounted.trans h)

/-- A view that is mounted has a task. -/
theorem housed_mount (hb : b.Housed) (kind : ViewKind)
    (htasks : b'.tasks = (b.mount kind).2.tasks) (hstore : b'.store = (b.mount kind).2.store) :
    b'.Housed := by
  intro j slot hslot
  have htask : b'.task? j = (b.mount kind).2.task? j := by rw [task?, htasks]; rfl
  rw [htask, task?_mount]
  rw [hstore, mount, Store.get?_put] at hslot
  by_cases hj : j = b.nextId
  · rw [if_pos hj]
    cases b.task? j with
    | none => exact ⟨_, rfl⟩
    | some t => exact ⟨t, rfl⟩
  · rw [if_neg hj] at hslot
    obtain ⟨t, ht⟩ := hb j slot hslot
    exact ⟨t, by rw [ht, Option.some_or]⟩

/-- A view that is given up keeps its task for now. -/
theorem housed_cancel (hb : b.Housed) (id : ViewId) (htasks : b'.tasks = (b.cancel id).tasks)
    (hstore : b'.store = b.store) : b'.Housed := by
  intro j slot hslot
  have htask : b'.task? j = (b.cancel id).task? j := by rw [task?, htasks]; rfl
  rw [hstore] at hslot
  obtain ⟨t, ht⟩ := hb j slot hslot
  rw [htask, task?_cancel, ht]
  split
  · exact ⟨_, rfl⟩
  · exact ⟨t, rfl⟩

theorem follows_hold (b : Board) (kind : ViewKind) (op : Operation) :
    b.Follows op (b.hold kind).2 :=
  ⟨⟨rfl, fun _ hb => housed_mount hb kind rfl rfl⟩, .same rfl⟩

theorem follows_release (b : Board) (id : ViewId) (op : Operation) :
    b.Follows op (b.release id).2 := by
  by_cases hid : id ∈ b.held
  · rw [release_of_mem hid]
    exact ⟨⟨rfl, fun _ hb => housed_cancel hb id rfl rfl⟩, .same rfl⟩
  · rw [release_of_not_mem hid]
    exact (Ran.refl b).follows op

theorem follows_ensureMounted (b : Board) (kind : ViewKind) (op : Operation) :
    b.Follows op (b.ensureMounted kind).2 := by
  cases hkind : b.mounted.lookup kind with
  | none =>
    rw [ensureMounted_of_none hkind]
    exact ⟨⟨rfl, fun _ hb => housed_mount hb kind rfl rfl⟩, .entered hkind rfl⟩
  | some id =>
    rw [ensureMounted_of_some hkind]
    exact (Ran.refl b).follows op

theorem follows_unmountKind (b : Board) (hop : op.Unmounts kind) :
    b.Follows op (b.unmountKind kind).2 := by
  unfold unmountKind
  split
  · rename_i id _
    have habandon : b.Follows op (b.abandon kind id) :=
      ⟨⟨rfl, fun _ hb => housed_cancel hb id rfl rfl⟩, .struck hop rfl⟩
    exact habandon.ran ((endures_ran _).wake id (.refl _))
  · exact (Ran.refl b).follows op

/-- Only a request that a view be unmounted takes one off the list. -/
theorem follows_respond (b : Board) (r : Request) : b.Follows (.request r) (b.respond r).2 := by
  have hresponded := b.responded r
  generalize (b.respond r).2 = b' at hresponded ⊢
  cases hresponded with
  | unchanged => exact (Ran.refl b).follows _
  | shown kind => exact b.follows_ensureMounted kind _
  | unmounted h hkind => exact b.follows_unmountKind ⟨_, h, hkind⟩
  | commanded did command => exact (b.ran_command did command).follows _
  | purged => exact (b.ran_attend (e := .purge) (by simp)).follows _
  | dismissed id => exact (b.ran_attend (e := .dismiss id) (by simp)).follows _
  | debugged on => exact (b.ran_attend (e := .debug on) (by simp)).follows _

/-- Whatever is asked for, one view more or less is found under its kind at most; and all that
is sustained is, unless the clock is set. -/
theorem follows_operate (b : Board) {op : Operation}
    (hclock : ∀ wall, op ≠ .attend (.clock wall)) : b.Follows op (b.operate op) := by
  have hasked : b.Follows op (b.asked op) := by
    cases op with
    | request r => exact b.follows_respond r
    | hold kind => exact b.follows_hold kind _
    | release id => exact b.follows_release id _
    | command did command => exact (b.ran_sendCommand did command).follows _
    | advance ms => exact (b.endures_ran.advance ms (.refl b)).follows _
    | await condition looks => exact (b.endures_ran.await condition looks (.refl b)).follows _
    | attend e => exact (b.ran_attend fun wall heq => hclock wall (heq ▸ rfl)).follows _
  exact hasked.ran (ran_settle _)

theorem listed_operate (b : Board) (op : Operation) : b.Listed op (b.operate op) := by
  by_cases hclock : ∃ wall, op = .attend (.clock wall)
  · obtain ⟨wall, rfl⟩ := hclock
    exact .same (ran_settle (b.attend (.clock wall))).mounted
  · exact (b.follows_operate fun wall heq => hclock ⟨wall, heq⟩).listed

namespace Listed

/-- A view is found under its kind until someone asks that it be unmounted. -/
theorem lookup_eq (h : b.Listed op b') (hop : ¬ op.Unmounts kind)
    (hid : b.mounted.lookup kind = some id) : b'.mounted.lookup kind = some id := by
  cases h with
  | same h => rwa [h]
  | entered hkind h => rw [h, List.lookup_append, hid, Option.some_or]
  | @struck other hother h =>
    have hne : kind ≠ other := fun heq => hop (heq ▸ hother)
    rwa [h, lookup_filter_ne hne]

/-- A view that is found under a kind was found there before, or has the next number. -/
theorem le_of_lookup (h : b.Listed op b') {n : ViewId} (hn : n ≤ b.nextId)
    (hb : ∀ id, b.mounted.lookup kind = some id → n ≤ id)
    (hid : b'.mounted.lookup kind = some id) : n ≤ id := by
  cases h with
  | same h => exact hb id (h ▸ hid)
  | @entered other hkind h =>
    rw [h, List.lookup_append] at hid
    cases hold : b.mounted.lookup kind with
    | some old =>
      rw [hold, Option.some_or] at hid
      exact Option.some.inj hid ▸ hb old hold
    | none =>
      rw [hold, Option.none_or] at hid
      obtain ⟨_, _, hmem, _⟩ := List.lookup_eq_some_iff.mp hid
      have hnext : id = b.nextId := by
        have hentry : (kind, id) ∈ [(other, b.nextId)] := by simp [hmem]
        simpa using (Prod.mk.inj (List.mem_singleton.mp hentry)).2
      rw [hnext]
      exact hn
  | @struck other hother h =>
    by_cases heq : kind = other
    · subst heq
      have hmem := mem_of_lookup hid
      rw [h] at hmem
      simp at hmem
    · rw [h, lookup_filter_ne heq] at hid
      exact hb id hid

/-- No kind is listed twice. -/
theorem kinds_nodup (h : b.Listed op b') (hb : (b.mounted.map (·.1)).Nodup) :
    (b'.mounted.map (·.1)).Nodup := by
  cases h with
  | same h => rwa [h]
  | @entered kind hkind h =>
    rw [h, List.map_append, List.nodup_append]
    refine ⟨hb, by simp, ?_⟩
    rintro other hother _ hsingle rfl
    obtain ⟨e, he, rfl⟩ := List.mem_map.mp hother
    obtain rfl : e.1 = kind := by simpa using hsingle
    have hnone := List.lookup_eq_none_iff.mp hkind e he
    simp at hnone
  | struck hop h =>
    rw [h]
    exact hb.sublist (List.filter_sublist.map _)

end Listed

/-! ## Section 3 — sessions -/

end Board

/-- The clock is not set to an instant at which new messages would expire outside
the calendar. -/
def Operation.InCalendar (lifetime : Int) : Operation → Prop
  | .attend (.clock wall) => ∃ expiry, Timestamp.after wall lifetime = .ok expiry
  | _ => True

namespace Board

variable {b b' : Board} {op : Operation} {id : ViewId} {kind : ViewKind}

/-- What holds of a board between what is asked of it, as long as messages expire
within the calendar. -/
structure InService (b : Board) : Prop where
  order : b.InOrder
  quiet : b.Quiet
  housed : b.Housed
  lasts : ∃ instant, b.expiry = .ok instant
  kinds : (b.mounted.map (·.1)).Nodup

theorem inService_start {s : Settings} {intervals : Intervals} {wall : Int} {firstToast : Uuid}
    (hcal : ∃ expiry, Timestamp.after wall
      (Timestamp.signedSeconds s.notifications.durationSecs) = .ok expiry) :
    (start s intervals wall firstToast).InService where
  order := inOrder_start s intervals wall firstToast
  quiet := fun t ht => nomatch ht
  housed := housed_start s intervals wall firstToast
  lasts := by
    rw [expiry, lifetime_start]
    exact hcal
  kinds := .nil

theorem InService.operate (hb : b.InService) (hop : op.InCalendar b.notifier.lifetime) :
    (b.operate op).InService := by
  obtain ⟨horder, hquiet, _⟩ := operate_rests hb.order hb.quiet op
  have hkinds := (b.listed_operate op).kinds_nodup hb.kinds
  by_cases hclock : ∃ wall, op = .attend (.clock wall)
  · obtain ⟨wall, rfl⟩ := hclock
    have hset := ran_settle (b.attend (.clock wall))
    have hlasts : ∃ instant, (b.attend (.clock wall)).expiry = .ok instant := hop
    refine ⟨horder, hquiet, hset.housed hlasts hb.housed, ?_, hkinds⟩
    rw [Board.operate, asked, hset.expiry]
    exact hlasts
  · have hfollows := b.follows_operate fun wall heq => hclock ⟨wall, heq⟩
    exact ⟨horder, hquiet, hfollows.housed hb.lasts hb.housed,
      hfollows.expiry ▸ hb.lasts, hkinds⟩

theorem InService.foldl_operate {ops : List Operation} (hb : b.InService)
    (hops : ∀ op ∈ ops, op.InCalendar b.notifier.lifetime) :
    (ops.foldl Board.operate b).InService := by
  induction ops generalizing b with
  | nil => exact hb
  | cons op ops ih =>
    obtain ⟨⟨⟨_, hrun⟩, _⟩, _⟩ := operate_leads hb.order hb.quiet op
    refine ih (hb.operate (hops op List.mem_cons_self)) fun other hother => ?_
    rw [hrun.run.lifetime_eq]
    exact hops other (List.mem_cons_of_mem op hother)

/-- What is found under a kind stays there while nobody asks that it be unmounted. -/
theorem lookup_foldl_operate {ops : List Operation} (hops : ∀ op ∈ ops, ¬ op.Unmounts kind)
    (hid : b.mounted.lookup kind = some id) :
    (ops.foldl operate b).mounted.lookup kind = some id := by
  induction ops generalizing b with
  | nil => exact hid
  | cons op ops ih =>
    exact ih (fun other hother => hops other (List.mem_cons_of_mem op hother))
      ((b.listed_operate op).lookup_eq (hops op List.mem_cons_self) hid)

/-- What is found under a kind after a while was found there before, or has a number that was
given out since. -/
theorem le_of_lookup_foldl_operate {ops : List Operation} {n : ViewId} (hb : b.InOrder)
    (hquiet : b.Quiet) (hn : n ≤ b.nextId)
    (hfound : ∀ id, b.mounted.lookup kind = some id → n ≤ id)
    (hid : (ops.foldl operate b).mounted.lookup kind = some id) : n ≤ id := by
  induction ops generalizing b with
  | nil => exact hfound id hid
  | cons op ops ih =>
    obtain ⟨⟨⟨_, hrun⟩, hb'⟩, hquiet'⟩ := operate_leads hb hquiet op
    exact ih hb' hquiet' (Nat.le_trans hn hrun.run.nextId_le)
      (fun id' hid' => (b.listed_operate op).le_of_lookup hn hfound hid') hid

/-- A slot that is gone does not come back. -/
theorem Leads.get?_eq_none (h : b.Leads b') (hb : b.InOrder) (hid : id < b.nextId)
    (hnone : b.store.get? id = none) : b'.store.get? id = none := by
  obtain ⟨⟨_, hrun⟩, _⟩ := h
  have hall :=
    hrun.run.preserves (P := fun b => b.Tidy ∧ id < b.nextId ∧ b.store.get? id = none)
    (fun _ _ _ hb hstep =>
      ⟨hstep.tidy hb.1, Nat.lt_of_lt_of_le hb.2.1 hstep.nextId_le,
        hstep.get?_eq_none hb.1 hb.2.1 hb.2.2⟩)
    ⟨hb.tidy, hid, hnone⟩
  exact hall.2.2

/-- A view that is mounted on behalf of callers ends with its slot when it is unmounted. -/
theorem InService.unmountKind_eq (hb : b.InService) (hkept : b.Kept)
    (hid : b.mounted.lookup kind = some id) :
    b.unmountKind kind = (true, (b.abandon kind id).finish id) := by
  have hmem : id ∈ b.handles :=
    List.mem_append_right _ (List.mem_map_of_mem (f := (·.2)) (mem_of_lookup hid))
  obtain ⟨slot, hslot⟩ := hkept.slot id hmem
  obtain ⟨t, ht⟩ := hb.housed id slot hslot
  have htask : (b.abandon kind id).task? id = some { t with cancelled := true } := by
    have hcancel : (b.cancel id).task? id = _ := task?_cancel
    rw [if_pos rfl, ht] at hcancel
    exact hcancel
  have hwake : (b.abandon kind id).wake id = (b.abandon kind id).finish id := by
    simp only [wake, htask, if_true]
  simp only [unmountKind, hid, hwake]

/-- The routes of the mounted views are sorted, each of them once. -/
theorem routes_pairwise (hb : (b.mounted.map (·.1)).Nodup) : b.routes.Pairwise (· < ·) := by
  have hsorted := @List.pairwise_mergeSort _ (fun x y : String => decide (x ≤ y))
    (fun x y z hxy hyz => by
      simpa using String.le_trans (by simpa using hxy) (by simpa using hyz))
    (fun x y => by simpa using String.le_total x y) (b.mounted.map fun e => e.1.route)
  have hnodup : b.routes.Nodup := by
    have hmap : (b.mounted.map fun e => e.1.route) =
        (b.mounted.map (·.1)).map ViewKind.route := by
      rw [List.map_map]
      rfl
    rw [routes, (List.mergeSort_perm _ _).nodup_iff, hmap]
    exact hb.map ViewKind.route_injective
  refine (hsorted.and hnodup).imp fun {x y} h => ?_
  exact Std.lt_of_le_of_ne (by simpa using h.1) h.2

/-- The routes are those of the views that are found under their kinds. -/
theorem mem_routes {route : String} :
    route ∈ b.routes ↔ ∃ kind id, b.mounted.lookup kind = some id ∧ route = kind.route := by
  simp only [routes, List.mem_mergeSort, List.mem_map]
  constructor
  · rintro ⟨⟨kind, id⟩, hmem, rfl⟩
    cases hfound : b.mounted.lookup kind with
    | none =>
      have hnone := List.lookup_eq_none_iff.mp hfound _ hmem
      simp at hnone
    | some id' => exact ⟨kind, id', hfound, rfl⟩
  · rintro ⟨kind, id, hfound, rfl⟩
    exact ⟨_, mem_of_lookup hfound, rfl⟩

/-- A dashboard has one view of each kind for all callers. -/
structure OneEach (b : Board) : Prop where
  /-- What is found under a kind is a view of this kind. -/
  found : ∀ kind id, b.mounted.lookup kind = some id → ∃ slot, b.store.get? id = some slot ∧
    slot.kind = kind
  /-- Who asks for a view that is not mounted has one mounted under a new number, and is told
  that it is loading. -/
  first : ∀ r kind, b.Wants r "GET" kind → b.mounted.lookup kind = none →
    (b.respond r).1 =
      .ok ⟨200, .json (.obj [("route", .str kind.route), ("loading", .bool true)])⟩ ∧
      (b.operate (.request r)).mounted.lookup kind = some b.nextId
  /-- Until someone asks that it be unmounted, all who ask for views of one kind are shown the
  same one, under whatever names they ask, and those who come later mount nothing. -/
  shared : ∀ r r' kind (later : List Operation), b.Wants r "GET" kind → b.Wants r' "GET" kind →
    (∀ op ∈ later, ¬ op.Unmounts kind) →
      ∃ id, (b.respond r).1 = .ok ⟨200, .json ((b.respond r).2.render kind id).toJson⟩ ∧
        (b.operate (.request r)).mounted.lookup kind = some id ∧
        let b' := later.foldl operate (b.operate (.request r))
        b'.respond r' = (.ok ⟨200, .json (b'.render kind id).toJson⟩, b')
  /-- Who asks that a mounted view be unmounted is told that it was.  Its slot is gone for good,
  and every later view of its kind has a larger number. -/
  unmounted : ∀ r kind id (later : List Operation), b.Wants r "DELETE" kind →
    b.mounted.lookup kind = some id →
    (b.respond r).1 = .ok ⟨204, .empty⟩ ∧ (b.respond r).2.mounted.lookup kind = none ∧
      (b.respond r).2.store.get? id = none ∧
      let b' := later.foldl operate (b.operate (.request r))
      b'.store.get? id = none ∧ ∀ id', b'.mounted.lookup kind = some id' → id < id'
  /-- Who asks that a view be unmounted which is not mounted is told so. -/
  absent : ∀ r kind, b.Wants r "DELETE" kind → b.mounted.lookup kind = none →
    b.respond r = (.ok ⟨404, .empty⟩, b)
  /-- What names no view is found nowhere. -/
  unknown : ∀ r method text, method ∈ ["GET", "DELETE"] → b.admits r = true →
    r.AsksFor method text →
    ViewKind.ofRoute? text = none → ∃ body, b.respond r = (.ok ⟨404, body⟩, b)
  /-- Who asks which views are mounted is told their routes. -/
  told : ∀ r, b.admits r = true → r.method = "GET" → r.path = "/views".toList →
    b.respond r = (.ok ⟨200, .json (Json.ofList Json.str b.routes)⟩, b)
  sorted : b.routes.Pairwise (· < ·)
  listed : ∀ route, route ∈ b.routes ↔ ∃ kind id, b.mounted.lookup kind = some id ∧
    route = kind.route

namespace Wants

variable {r : Request}

/-- Who is admitted once is admitted at all times. -/
theorem of_apiKey (h : b.Wants r method kind) (hkey : b'.apiKey = b.apiKey) :
    b'.Wants r method kind := by
  refine ⟨?_, h.named⟩
  have hadmits := h.admits
  rwa [Board.admits, ← hkey] at hadmits

/-- Who asks for a view that is not mounted has one mounted, and sees nothing but
that it is loading. -/
theorem respond_first (h : b.Wants r "GET" kind) (hnone : b.mounted.lookup kind = none) :
    (b.respond r).1 =
      .ok ⟨200, .json (.obj [("route", .str kind.route), ("loading", .bool true)])⟩ ∧
      (b.respond r).1 = .ok ⟨200, .json ((b.respond r).2.render kind b.nextId).toJson⟩ ∧
      (b.operate (.request r)).mounted.lookup kind = some b.nextId := by
  have hrespond : b.respond r = b.showView kind := respond_of_wants h (by simp)
  have hanswer : (b.respond r).1 =
      .ok ⟨200, .json ((b.respond r).2.render kind b.nextId).toJson⟩ := by
    rw [hrespond, showView, ensureMounted_of_none hnone]
    rfl
  have hslot : (b.respond r).2.store.get? b.nextId = some { kind } := by
    rw [hrespond, showView, ensureMounted_of_none hnone]
    exact (Store.get?_put b.store b.nextId b.nextId _).trans (if_pos rfl)
  have hlist : (b.respond r).2.mounted = b.mounted ++ [(kind, b.nextId)] := by
    rw [hrespond, showView, ensureMounted_of_none hnone]
    rfl
  refine ⟨?_, hanswer, ?_⟩
  · rw [hanswer, render, hslot]
    rfl
  · rw [operate, asked, (ran_settle _).mounted, hlist, List.lookup_append, hnone]
    simp

/-- Who asks for a view that is mounted sees it, and changes nothing. -/
theorem respond_again (h : b.Wants r "GET" kind) (hid : b.mounted.lookup kind = some id) :
    b.respond r = (.ok ⟨200, .json (b.render kind id).toJson⟩, b) := by
  rw [respond_of_wants h (by simp), if_neg (by decide), showView, ensureMounted, hid]
  rfl

/-- After someone asked for a view, it is mounted, and was shown. -/
theorem respond_shows (h : b.Wants r "GET" kind) :
    ∃ id, (b.respond r).1 = .ok ⟨200, .json ((b.respond r).2.render kind id).toJson⟩ ∧
      (b.operate (.request r)).mounted.lookup kind = some id := by
  cases hid : b.mounted.lookup kind with
  | none =>
    obtain ⟨_, hshown, hmounted⟩ := h.respond_first hid
    exact ⟨b.nextId, hshown, hmounted⟩
  | some id =>
    have hrespond := h.respond_again hid
    refine ⟨id, by rw [hrespond], ?_⟩
    rw [operate, asked, (ran_settle _).mounted, hrespond]
    exact hid

end Wants

namespace InService

variable {r : Request}

/-- Who asks that a mounted view be unmounted is told that it was, and its slot is gone. -/
theorem respond_delete (hb : b.InService) (hkept : b.Kept) (h : b.Wants r "DELETE" kind)
    (hid : b.mounted.lookup kind = some id) :
    (b.respond r).1 = .ok ⟨204, .empty⟩ ∧ (b.respond r).2.mounted.lookup kind = none ∧
      (b.respond r).2.store.get? id = none ∧ (b.respond r).2.nextId = b.nextId := by
  have hrespond : b.respond r = (.ok ⟨204, .empty⟩, (b.abandon kind id).finish id) := by
    rw [respond_of_wants h (by simp), if_pos rfl, dropView, hb.unmountKind_eq hkept hid]
    rfl
  rw [hrespond]
  refine ⟨rfl, ?_, ?_, rfl⟩
  · rw [List.lookup_eq_none_iff]
    intro e he
    have hne : e.1 ≠ kind := by simpa using (List.mem_filter.mp he).2
    simpa using hne.symm
  · exact (Store.get?_remove _ id id).trans (if_pos rfl)

/-- What was unmounted does not come back, and its number is not given out again. -/
theorem unmounted (hb : b.InService) (hkept : b.Kept) (h : b.Wants r "DELETE" kind)
    (hid : b.mounted.lookup kind = some id) (later : List Operation) :
    (later.foldl Board.operate (b.operate (.request r))).store.get? id = none ∧
      ∀ id', (later.foldl Board.operate (b.operate (.request r))).mounted.lookup kind =
        some id' → id < id' := by
  obtain ⟨_, hnone, hslot, hnext⟩ := hb.respond_delete hkept h hid
  have hlt : id < b.nextId := by
    refine hb.order.tidy.handles_lt id (List.mem_append_right _ ?_)
    exact List.mem_map_of_mem (f := (·.2)) (mem_of_lookup hid)
  have hasked := asked_leads hb.order hb.quiet (.request r)
  have hsettled := (settle_flows hasked.2).leads
  obtain ⟨⟨⟨_, hrun⟩, horder⟩, hquiet⟩ := operate_leads hb.order hb.quiet (.request r)
  obtain ⟨hlater, _⟩ := foldl_operate_leads horder hquiet later
  refine ⟨(hsettled.trans hlater).get?_eq_none hasked.2 (hnext ▸ hlt) hslot, fun id' hid' => ?_⟩
  have hempty : (b.operate (.request r)).mounted.lookup kind = none := by
    rw [Board.operate, asked, (ran_settle _).mounted]
    exact hnone
  have hle := le_of_lookup_foldl_operate horder hquiet hrun.run.nextId_le
    (by simp [hempty]) hid'
  exact Nat.lt_of_lt_of_le hlt hle

end InService

/-- Views are mounted and unmounted on behalf of callers so that there is one of each kind, in
every session in which messages expire within the calendar. -/
theorem session_oneEach {s : Settings} {intervals : Intervals} {wall : Int} {firstToast : Uuid}
    {ops : List Operation}
    (hcal : ∃ expiry, Timestamp.after wall
      (Timestamp.signedSeconds s.notifications.durationSecs) = .ok expiry)
    (hops : ∀ op ∈ ops, op.InCalendar (Timestamp.signedSeconds s.notifications.durationSecs)) :
    (ops.foldl operate (start s intervals wall firstToast)).OneEach := by
  obtain ⟨h, hrun, _⟩ := session_run s intervals wall firstToast ops
  have htidy₀ := tidy_start s intervals wall firstToast
  have htyped := hrun.run.typed htidy₀ (sound_start s intervals wall firstToast)
    (typed_start s intervals wall firstToast)
  have hkept := hrun.run.kept htidy₀ (kept_start s intervals wall firstToast)
  rw [← lifetime_start s intervals wall firstToast] at hops
  have hstart : (start s intervals wall firstToast).InService := inService_start hcal
  have hb := hstart.foldl_operate hops
  generalize ops.foldl operate (start s intervals wall firstToast) = b at hrun htyped hkept hb ⊢
  refine
    { found := fun kind id hfound => htyped.slot_of_lookup hkept hfound
      first := ?_
      shared := ?_
      unmounted := ?_
      absent := ?_
      unknown := fun r method text hmethod hadmits h hkind =>
        respond_of_asksFor_unknown hadmits h hmethod hkind
      told := ?_
      sorted := routes_pairwise hb.kinds
      listed := fun _ => mem_routes }
  · intro r kind h hnone
    obtain ⟨hanswer, _, hmounted⟩ := h.respond_first hnone
    exact ⟨hanswer, hmounted⟩
  · intro r r' kind later h h' hlater
    obtain ⟨id, hshown, hmounted⟩ := h.respond_shows
    obtain ⟨⟨⟨_, hfirst⟩, horder⟩, hquiet⟩ := operate_leads hb.order hb.quiet (.request r)
    obtain ⟨⟨⟨_, hrest⟩, _⟩, _⟩ := foldl_operate_leads horder hquiet later
    have hkey := hrest.run.apiKey_eq.trans hfirst.run.apiKey_eq
    exact ⟨id, hshown, hmounted, (h'.of_apiKey hkey).respond_again
      (lookup_foldl_operate hlater hmounted)⟩
  · intro r kind id later h hid
    obtain ⟨hanswer, hgone, hslot, _⟩ := hb.respond_delete hkept h hid
    exact ⟨hanswer, hgone, hslot, hb.unmounted hkept h hid later⟩
  · intro r kind h hnone
    rw [respond_of_wants h (by simp), if_pos rfl, dropView, unmountKind, hnone]
    rfl
  · intro r hadmits hmethod hpath
    have hresource : Resource.ofPath? r.path = some .views := by
      rw [hpath]
      decide
    simp only [respond, hadmits, hresource, hmethod]
    rfl

/-- The alarm is mounted under one of its names and unmounted under the other, and a device is
shown under two names. -/
theorem session_oneEach_aliases :
    let ask (method text : String) : Request :=
      ⟨method, Resource.viewPrefix ++ text.toList, [], ""⟩
    let b := [Operation.request (ask "GET" "alarms"), .advance 300].foldl operate
      (start {} ⟨200, 50, by decide, by decide⟩ 0 ⟨0⟩)
    b.routes = ["alarm"] ∧ (b.respond (ask "DELETE" "alarm")).1 = .ok ⟨204, .empty⟩ ∧
      ∃ id, (b.operate (.request (ask "GET" "devices/007"))).mounted.lookup
        (.device ⟨7⟩) = some id ∧
        let b' := (b.operate (.request (ask "GET" "devices/007"))).operate (.advance 300)
        b'.respond (ask "GET" "devices/+7") =
          (.ok ⟨200, .json (b'.render (.device ⟨7⟩) id).toJson⟩, b') := by
  intro ask b
  have hone : b.OneEach := session_oneEach (by decide +kernel) (by simp [Operation.InCalendar])
  have hkey : b.apiKey = none := by decide +kernel
  have hwants (method text : String) (kind : ViewKind)
    (hdecode : Percent.decodeText? text.toList = some text)
      (hkind : ViewKind.ofRoute? text = some kind) : b.Wants (ask method text) method kind :=
    ⟨by simp [admits, hkey], text, ⟨rfl, text.toList, rfl, hdecode⟩, hkind⟩
  have halarm := hwants "DELETE" "alarm" .alarm (by decide +kernel) (by decide)
  have hzeros := hwants "GET" "devices/007" (.device ⟨7⟩) (by decide +kernel) (by decide)
  have hplus := hwants "GET" "devices/+7" (.device ⟨7⟩) (by decide +kernel) (by decide)
  obtain ⟨id, _, hmounted, hshared⟩ :=
    hone.shared _ _ _ [.advance 300] hzeros hplus (by simp [Operation.Unmounts])
  obtain ⟨hanswer, _⟩ := hone.unmounted _ _ 1 [] halarm (by decide +kernel)
  exact ⟨by decide +kernel, hanswer, id, hmounted, hshared⟩

end Board

end HouseBoard
