/-
HouseBoard.Proofs.Typing — what a slot holds belongs to its view.

One store holds the slots of all views, and one type all snapshots.  Yet in every run the kind
of a slot is the one that its number was mounted with, its snapshot is of that kind, the report
of a device stands beside that of the controller which it names, and a snapshot is there exactly
if it is known when it was taken (Section 1 to Section 3).  This is so also when tasks fall,
since each effect by itself keeps it.  So every view that can be asked for is shown as what it
is, or as one of which nothing is known (Section 4).
-/
import HouseBoard.Board.Render
import HouseBoard.Proofs.Sound

namespace HouseBoard

/-! ## Section 1 — slots that hold what they should -/

/-- The report of a controller stands beside that of a device exactly if the device names
this controller. -/
structure DeviceSnapshot.Paired (s : DeviceSnapshot) : Prop where
  garage : (∃ g, s.live = some (.garage g)) ↔ s.state.uiViewName = some "garage"
  heaters : (∃ h, s.live = some (.heaters h)) ↔ s.state.uiViewName = some "heaters"
  alarm : (∃ a, s.live = some (.alarm a)) ↔ s.state.uiViewName = some "alarm" ∨
    s.state.uiViewName = some "alarms"
  alone : s.live = none ↔ ∀ name ∈ s.state.uiViewName,
    name ∉ ["garage", "heaters", "alarm", "alarms"]

/-- A slot holds a snapshot of its kind, and knows since when. -/
structure Slot.Typed (slot : Slot) : Prop where
  suits : ∀ s, slot.snapshot = some s → s.Suits slot.kind
  paired : ∀ d, slot.snapshot = some (.device d) → d.Paired
  dated : slot.snapshot.isSome = slot.polledAt.isSome

/-- The names of the controllers. -/
theorem Owner.ofName?_cases (name : String) :
    (name = "garage" ∧ ofName? name = some .garage) ∨
      (name = "heaters" ∧ ofName? name = some .heaters) ∨
      (name ∈ ["alarm", "alarms"] ∧ ofName? name = some .alarm) ∨
      (name ∉ ["garage", "heaters", "alarm", "alarms"] ∧ ofName? name = none) := by
  unfold ofName?
  split <;> simp_all

/-- A device whose controller has answered is paired with it. -/
theorem DeviceSnapshot.paired_of_owner {state : DeviceState} {owner : Owner}
    (h : Owner.of? state = some owner) (l : owner.call.Reply) :
    DeviceSnapshot.Paired ⟨state, some (owner.live l)⟩ := by
  obtain ⟨name, hname, howner⟩ := Option.bind_eq_some_iff.mp h
  rcases Owner.ofName?_cases name with ⟨rfl, heq⟩ | ⟨rfl, heq⟩ | ⟨hmem, heq⟩ | ⟨hmem, heq⟩
  · cases howner.symm.trans heq
    refine ⟨⟨fun _ => hname, fun _ => ⟨l, rfl⟩⟩, ?_, ?_, ?_⟩ <;> simp [hname, Owner.live]
  · cases howner.symm.trans heq
    refine ⟨?_, ⟨fun _ => hname, fun _ => ⟨l, rfl⟩⟩, ?_, ?_⟩ <;> simp [hname, Owner.live]
  · cases howner.symm.trans heq
    simp only [List.mem_cons, List.not_mem_nil, or_false] at hmem
    refine ⟨?_, ?_, ⟨fun _ => by simpa [hname] using hmem, fun _ => ⟨l, rfl⟩⟩, ?_⟩ <;>
      rcases hmem with rfl | rfl <;> simp [hname, Owner.live]
  · cases howner.symm.trans heq

/-- A device that names no controller stands alone. -/
theorem DeviceSnapshot.paired_alone {state : DeviceState} (h : Owner.of? state = none) :
    DeviceSnapshot.Paired ⟨state, none⟩ := by
  cases hname : state.uiViewName with
  | none => constructor <;> simp [hname]
  | some name =>
    have hnone : Owner.ofName? name = none := by simpa [Owner.of?, hname] using h
    rcases Owner.ofName?_cases name with ⟨_, heq⟩ | ⟨_, heq⟩ | ⟨_, heq⟩ | ⟨hmem, _⟩
    · cases hnone.symm.trans heq
    · cases hnone.symm.trans heq
    · cases hnone.symm.trans heq
    · simp only [List.mem_cons, List.not_mem_nil, or_false, not_or] at hmem
      constructor <;> simp [hname, hmem]

/-- What a view learns of a device is paired. -/
theorem Poll.paired_of_learned? {p : Poll} {kind : ViewKind} {d : DeviceSnapshot}
    (h : p.learned? kind = some (some (.device d))) : d.Paired := by
  cases kind with
  | device did =>
    obtain ⟨state, _, ⟨hnone, hs⟩ | ⟨owner, reply, howner, _, hs⟩⟩ :=
      exists_of_learned?_device h
    · cases hs
      exact DeviceSnapshot.paired_alone hnone
    · cases hs
      exact DeviceSnapshot.paired_of_owner howner reply
  | _ => cases suits_of_learned? h

/-- A turn leaves a slot typed, however far its effects are performed. -/
theorem ViewTask.Turned.typed {b : Board} {t t' : ViewTask} {p : Poll} {m : Move}
    {es es' : List Effect} {slot : Slot} (h : t.Turned b p m es t') (hs : t.Sound slot)
    (hslot : slot.Typed) (hpart : es' <+: es) (wall : Int) :
    (es'.foldl (Slot.take wall) slot).Typed ∧ (es'.foldl (Slot.take wall) slot).kind =
      slot.kind := by
  rcases h.slot_cases hpart wall slot with hsame | hticked | ⟨s, es₀, hlearned, hcommit⟩
  · rw [hsame]
    exact ⟨hslot, rfl⟩
  · rw [hticked]
    exact ⟨⟨hslot.suits, hslot.paired, hslot.dated⟩, rfl⟩
  · rw [hcommit]
    refine ⟨⟨?_, ?_, rfl⟩, rfl⟩
    · intro s' hs'
      cases hs'
      have hsuits := Poll.suits_of_learned? hlearned
      rwa [← hs.kind_eq] at hsuits
    · intro d hd
      cases hd
      exact Poll.paired_of_learned? hlearned

/-! ## Section 2 — views that someone holds -/

namespace Step

variable {b b' : Board} {x : Happening} {id : ViewId} {kind : ViewKind}

/-- Nobody gets hold of a view but by mounting it. -/
theorem mem_handles (h : Step b x b') (hid : id ∈ b'.handles) :
    id ∈ b.handles ∨ ∃ kind n, x = .mounted id kind n := by
  cases h with
  | attend e =>
    obtain ⟨_, _, hheld, hmounted, _⟩ := b.attend_frame e
    rw [Board.handles, hheld, hmounted] at hid
    exact .inl hid
  | hold kind =>
    rcases List.mem_cons.mp hid with rfl | hid
    · exact .inr ⟨kind, b.now, rfl⟩
    · exact .inl hid
  | @ensure kind hkind =>
    rw [Board.ensureMounted_of_none hkind] at hid
    simp only [Board.handles, Board.mount, List.map_append, List.map_cons, List.map_nil,
      List.mem_append, List.mem_singleton] at hid ⊢
    rcases hid with hheld | hmounted | rfl
    · exact .inl (.inl hheld)
    · exact .inl (.inr hmounted)
    · exact .inr ⟨kind, b.now, rfl⟩
  | release hheld =>
    rw [Board.release_of_mem hheld] at hid
    exact .inl (List.mem_append.mpr ((List.mem_append.mp hid).imp_left List.mem_of_mem_erase))
  | abandon hkind =>
    refine .inl (List.mem_append.mpr ((List.mem_append.mp hid).imp_right fun hmem => ?_))
    obtain ⟨e, he, rfl⟩ := List.mem_map.mp hmem
    exact List.mem_map_of_mem (List.mem_filter.mp he).1
  | leave ht hcancelled => exact .inl hid
  | move ht hcancelled hm hperforms =>
    rw [Board.move_of_performs ht hperforms] at hid
    exact .inl hid
  | fall ht hcancelled hm hperforms =>
    obtain ⟨es, _, hes⟩ := Board.move_of_not_performs ht hperforms
    rw [hes] at hid
    exact .inl hid
  | pass hn hsleeps => exact .inl hid

/-- A view is found under its kind after a step if it was before, or if it was mounted as
one of that kind. -/
theorem mem_mounted (h : Step b x b') (hid : (kind, id) ∈ b'.mounted) :
    (kind, id) ∈ b.mounted ∨ ∃ n, x = .mounted id kind n := by
  cases h with
  | attend e =>
    rw [(b.attend_frame e).2.2.2.1] at hid
    exact .inl hid
  | hold kind => exact .inl hid
  | ensure hkind =>
    rw [Board.ensureMounted_of_none hkind] at hid
    rcases List.mem_append.mp hid with hid | hid
    · exact .inl hid
    · cases List.mem_singleton.mp hid
      exact .inr ⟨b.now, rfl⟩
  | release hheld =>
    rw [Board.release_of_mem hheld] at hid
    exact .inl hid
  | abandon hkind => exact .inl (List.mem_filter.mp hid).1
  | leave ht hcancelled => exact .inl hid
  | move ht hcancelled hm hperforms =>
    rw [Board.move_of_performs ht hperforms] at hid
    exact .inl hid
  | fall ht hcancelled hm hperforms =>
    obtain ⟨es, _, hes⟩ := Board.move_of_not_performs ht hperforms
    rw [hes] at hid
    exact .inl hid
  | pass hn hsleeps => exact .inl hid

end Step

/-- Each view that someone holds has a slot, and its task was not given up. -/
structure Board.Kept (b : Board) : Prop where
  awake : ∀ id ∈ b.handles, ∀ t, b.task? id = some t → t.cancelled = false
  slot : ∀ id ∈ b.handles, ∃ slot, b.store.get? id = some slot

/-- Every step keeps the slots of the views that someone holds. -/
theorem Step.kept {b b' : Board} {x : Happening} (h : Step b x b') (htidy : b.Tidy)
    (hb : b.Kept) : b'.Kept := by
  have hboth : ∀ id ∈ b'.handles, (∀ t, b'.task? id = some t → t.cancelled = false) ∧
      ∃ slot, b'.store.get? id = some slot := by
    intro id hid
    have hold (hx : ∀ kind n, x ≠ .mounted id kind n) : id ∈ b.handles :=
      (h.mem_handles hid).resolve_right fun ⟨kind, n, heq⟩ => hx kind n heq
    cases h.fate htidy id with
    | other hx htask hslot =>
      have hmem := hold fun kind n heq => by simp [heq, Happening.isOf, Happening.id?] at hx
      rw [htask, hslot]
      exact ⟨hb.awake id hmem, hb.slot id hmem⟩
    | mounted hnext htask hslot =>
      refine ⟨?_, _, hslot⟩
      intro t ht
      rw [htask] at ht
      cases ht
      rfl
    | dropped => exact absurd hid (h.not_mem_handles_of_dropped htidy)
    | left ht hcancelled =>
      have hawake := hb.awake id (hold (by simp)) _ ht
      rw [hcancelled] at hawake
      cases hawake
    | moved ht hcancelled hallows htask hslot =>
      obtain ⟨slot, hget⟩ := hb.slot id (hold (by simp))
      refine ⟨?_, _, by rw [hslot, hget, Option.map_some]⟩
      intro t' ht'
      rw [htask] at ht'
      cases ht'
      rw [Board.turn_cancelled, hcancelled]
    | fell ht hcancelled hpart htask hslot =>
      obtain ⟨slot, hget⟩ := hb.slot id (hold (by simp))
      refine ⟨?_, _, by rw [hslot, hget, Option.map_some]⟩
      intro t' ht'
      rw [htask] at ht'
      cases ht'
  exact ⟨fun id hid => (hboth id hid).1, fun id hid => (hboth id hid).2⟩

theorem Board.kept_start (s : Settings) (intervals : Intervals) (wall : Int)
    (firstToast : Uuid) :
    (start s intervals wall firstToast).Kept where
  awake _ hid := nomatch hid
  slot _ hid := nomatch hid

theorem Run.kept {b b' : Board} {h : List Happening} (hrun : Run b h b') (htidy : b.Tidy)
    (hb : b.Kept) : b'.Kept :=
  (hrun.preserves (P := fun b => b.Tidy ∧ b.Kept)
    (fun _ _ _ hb hstep => ⟨hstep.tidy hb.1, hstep.kept hb.1 hb.2⟩)
    ⟨htidy, hb⟩).2

/-! ## Section 3 — the kinds with which views were mounted -/

/-- A view was mounted under a number as one of a kind. -/
def Happening.MountedAs (id : ViewId) (kind : ViewKind) (h : List Happening) : Prop :=
  ∃ n, .mounted id kind n ∈ h

theorem Happening.mountedAs_concat {id : ViewId} {kind : ViewKind} {h : List Happening}
    {x : Happening} :
    MountedAs id kind (h ++ [x]) ↔ MountedAs id kind h ∨ ∃ n, x = .mounted id kind n := by
  simp only [MountedAs, List.mem_append, List.mem_singleton, exists_or]
  simp only [eq_comm]

/-- What is in use is of the kind with which it was mounted, and each slot holds
what it should. -/
structure Board.Typed (b : Board) (h : List Happening) : Prop where
  kind_iff : ∀ id slot, b.store.get? id = some slot → ∀ kind, Happening.MountedAs id kind h ↔
    kind = slot.kind
  slots : ∀ id slot, b.store.get? id = some slot → slot.Typed
  named : ∀ kind id, (kind, id) ∈ b.mounted → Happening.MountedAs id kind h

/-- Every step leaves typed what a run has left typed. -/
theorem Step.typed {b₀ b b' : Board} {h : List Happening} {x : Happening} (hstep : Step b x b')
    (hrun : Run b₀ h b) (htidy : b₀.Tidy) (hsound : b.Sound) (hb : b.Typed h) :
    b'.Typed (h ++ [x]) := by
  have hboth : ∀ id slot, b'.store.get? id = some slot →
      (∀ kind, Happening.MountedAs id kind (h ++ [x]) ↔ kind = slot.kind) ∧ slot.Typed := by
    intro id slot hslot'
    simp only [Happening.mountedAs_concat]
    cases hstep.fate (hrun.tidy htidy) id with
    | other hx htask hslot =>
      rw [hslot] at hslot'
      have hnot (kind : ViewKind) : ¬ ∃ n, x = .mounted id kind n := by
        rintro ⟨n, rfl⟩
        simp [Happening.isOf, Happening.id?] at hx
      simp only [hnot, or_false]
      exact ⟨hb.kind_iff id slot hslot', hb.slots id slot hslot'⟩
    | @mounted kind stamp hnext htask hslot =>
      rw [hslot] at hslot'
      cases hslot'
      refine ⟨?_, by simp, by simp, rfl⟩
      intro kind'
      -- nothing can have happened to this number before
      have hnew : ¬ Happening.MountedAs id kind' h := by
        rintro ⟨n, hmem⟩
        have hother := hrun.isOf_eq_false htidy (Nat.le_of_eq hnext.symm) _ hmem
        simp [Happening.isOf, Happening.id?] at hother
      simp [hnew, eq_comm]
    | dropped hheld htask hslot =>
      rw [hslot] at hslot'
      simpa using ⟨hb.kind_iff id slot hslot', hb.slots id slot hslot'⟩
    | left ht hcancelled htask hslot =>
      rw [hslot] at hslot'
      cases hslot'
    | @moved t m ht hcancelled hallows htask hslot =>
      obtain ⟨slot₀, hslot₀, hs⟩ := hsound id t ht
      obtain ⟨p, hp, _⟩ := hs.exists_poll
      rw [hslot, hslot₀] at hslot'
      cases hslot'
      obtain ⟨htyped, hkind⟩ :=
        (b.turn_cases t m hp).typed hs (hb.slots id slot₀ hslot₀) (List.prefix_refl _) b.wall
      rw [hkind]
      simpa using ⟨hb.kind_iff id slot₀ hslot₀, htyped⟩
    | @fell t m es ht hcancelled hpart htask hslot =>
      obtain ⟨slot₀, hslot₀, hs⟩ := hsound id t ht
      obtain ⟨p, hp, _⟩ := hs.exists_poll
      rw [hslot, hslot₀] at hslot'
      cases hslot'
      obtain ⟨htyped, hkind⟩ :=
        (b.turn_cases t m hp).typed hs (hb.slots id slot₀ hslot₀) hpart b.wall
      rw [hkind]
      simpa using ⟨hb.kind_iff id slot₀ hslot₀, htyped⟩
  refine ⟨fun id slot hslot => (hboth id slot hslot).1,
    fun id slot hslot => (hboth id slot hslot).2, ?_⟩
  intro kind id hmem
  rw [Happening.mountedAs_concat]
  exact (hstep.mem_mounted hmem).imp_left (hb.named kind id)

theorem Board.typed_start (s : Settings) (intervals : Intervals) (wall : Int)
    (firstToast : Uuid) :
    (start s intervals wall firstToast).Typed [] where
  kind_iff _ _ hslot := nomatch hslot
  slots _ _ hslot := nomatch hslot
  named _ _ hmem := nomatch hmem

theorem Run.typed {b b' : Board} {h : List Happening} (hrun : Run b h b') (htidy : b.Tidy)
    (hsound : b.Sound) (hb : b.Typed []) : b'.Typed h := by
  induction hrun with
  | refl => exact hb
  | step hrun₁ hstep ih => exact hstep.typed hrun₁ htidy (hrun₁.sound htidy hsound) ih

/-- What is found under a kind has a slot of this kind. -/
theorem Board.Typed.slot_of_lookup {b : Board} {h : List Happening} (hb : b.Typed h)
    (hkept : b.Kept) {kind : ViewKind} {id : ViewId}
    (hfound : b.mounted.lookup kind = some id) :
    ∃ slot, b.store.get? id = some slot ∧ slot.kind = kind := by
  have hmem := Board.mem_of_lookup hfound
  obtain ⟨slot, hslot⟩ :=
    hkept.slot id (List.mem_append_right _ (List.mem_map_of_mem (f := (·.2)) hmem))
  exact ⟨slot, hslot, ((hb.kind_iff id slot hslot kind).mp (hb.named kind id hmem)).symm⟩

/-! ## Section 4 — what is shown -/

/-- The name that the model of a view of a kind has. -/
def ViewKind.tag : ViewKind → String
  | .home => "home"
  | .ble => "ble"
  | .garage => "garage"
  | .heaters => "heaters"
  | .alarm => "alarm"
  | .device _ => "device"

/-- The model of a snapshot is one of the kind of the view. -/
theorem Snapshot.Suits.tag_render {kind : ViewKind} {s : Snapshot} (h : s.Suits kind)
    (ctx : ViewContext) : (s.render ctx).tag = kind.tag := by
  cases s with
  | home =>
    cases kind with
    | home => rfl
    | _ => cases h
  | ble =>
    cases kind with
    | ble => rfl
    | _ => cases h
  | garage =>
    cases kind with
    | garage => rfl
    | _ => cases h
  | heaters =>
    cases kind with
    | heaters => rfl
    | _ => cases h
  | alarm =>
    cases kind with
    | alarm => rfl
    | _ => cases h
  | device =>
    cases kind with
    | device => rfl
    | _ => cases h

/-- A view is told to be loading exactly if there is no model, and then no instant; a model is
one of its kind. -/
structure ViewResponse.Tells (r : ViewResponse) (kind : ViewKind) : Prop where
  route : r.route = kind.route
  loading_iff : r.loading = false ↔ r.model.isSome = true
  dated_iff : r.model.isSome = true ↔ r.polledAt.isSome = true
  tag : ∀ m, r.model = some m → m.tag = kind.tag

/-- A view that has nothing to show is told to be loading. -/
theorem Board.render_tells_of_none (b : Board) {kind : ViewKind} {id : ViewId}
    (hslot : b.store.get? id = none) : (b.render kind id).Tells kind := by
  simp only [render, hslot]
  constructor <;> simp [ViewResponse.loading]

/-- A view is shown as one of the kind of its slot. -/
theorem Board.render_tells (b : Board) {id : ViewId} {slot : Slot}
    (hslot : b.store.get? id = some slot) (htyped : slot.Typed) :
    (b.render slot.kind id).Tells slot.kind := by
  simp only [render, hslot]
  constructor
  · rfl
  · simp [ViewResponse.loading]
  · simp [htyped.dated]
  · intro m hm
    obtain ⟨s, hs, rfl⟩ := Option.map_eq_some_iff.mp hm
    exact (htyped.suits s hs).tag_render _

/-- The store is typed in every run.  A slot is of the kind with which its number was mounted,
and of no other one; it holds a snapshot of this kind, if any, and knows since when exactly if
it has one.  Whoever asks for a view that was mounted gets a model of its kind with its instant,
or is told that nothing is known; and each view that is found under a kind has a slot of that
kind. -/
theorem Run.store_typed {s : Settings} {intervals : Intervals} {wall : Int} {firstToast : Uuid}
    {h : List Happening} {b : Board}
    (hrun : Run (Board.start s intervals wall firstToast) h b) :
    (∀ id slot, b.store.get? id = some slot →
      (∀ kind, Happening.MountedAs id kind h ↔ kind = slot.kind) ∧ slot.Typed) ∧
    (∀ id kind, Happening.MountedAs id kind h → (b.render kind id).Tells kind) ∧
    ∀ kind id, b.mounted.lookup kind = some id →
      (∃ slot, b.store.get? id = some slot ∧ slot.kind = kind) ∧
      (b.render kind id).Tells kind := by
  have htidy := Board.tidy_start s intervals wall firstToast
  have hsound := Board.sound_start s intervals wall firstToast
  have htyped := hrun.typed htidy hsound (Board.typed_start s intervals wall firstToast)
  have hkept := hrun.kept htidy (Board.kept_start s intervals wall firstToast)
  have hshown (id : ViewId) (kind : ViewKind) (hkind : Happening.MountedAs id kind h) :
      (b.render kind id).Tells kind := by
    cases hslot : b.store.get? id with
    | none => exact b.render_tells_of_none hslot
    | some slot =>
      rw [(htyped.kind_iff id slot hslot kind).mp hkind]
      exact b.render_tells hslot (htyped.slots id slot hslot)
  refine ⟨fun id slot hslot => ⟨htyped.kind_iff id slot hslot, htyped.slots id slot hslot⟩,
    hshown, ?_⟩
  intro kind id hfound
  exact ⟨htyped.slot_of_lookup hkept hfound,
    hshown id kind (htyped.named kind id (Board.mem_of_lookup hfound))⟩

/-- A device that names the garage is shown beside it, once both of its calls were answered. -/
theorem Run.garage_door_typed :
    ∃ (h : List Happening) (b : Board) (d : DeviceSnapshot) (m : ViewModel),
    Run (Board.start {} ⟨200, 50, by decide, by decide⟩ 0 ⟨0⟩) h b ∧
      (b.store.get? 1).bind (·.snapshot) = some (.device d) ∧ (∃ g, d.live = some (.garage g)) ∧
      (b.render (.device ⟨7⟩) 1).loading = false ∧ (b.render (.device ⟨7⟩) 1).model = some m ∧
      m.tag = "device" := by
  let door : DeviceState := { name := "door", uiViewName := some "garage" }
  let script : Script :=
    { devices := [(⟨7⟩, door)], garage := some default, delays := [(.garage, 30)] }
  let b₁ :=
    ((Board.start {} ⟨200, 50, by decide, by decide⟩ 0 ⟨0⟩).attend (.script script)).hold
      (.device ⟨7⟩)
  let b₂ := (b₁.2.move 1 .poll).move 1 .answers
  let b₃ := { b₂ with now := 30 }
  have hpoll : Step b₁.2 (b₁.2.moving 1 .poll) (b₁.2.move 1 .poll) :=
    .of_canMove (by decide +kernel)
  have hdevice : Step (b₁.2.move 1 .poll) ((b₁.2.move 1 .poll).moving 1 .answers) b₂ :=
    .of_canMove (by decide +kernel)
  have hsleeps : b₂.SleepsUntil 30 := by decide +kernel
  have hgarage : Step b₃ (b₃.moving 1 .answers) (b₃.move 1 .answers) :=
    .of_canMove (by decide +kernel)
  have hrun : Run (Board.start {} ⟨200, 50, by decide, by decide⟩ 0 ⟨0⟩)
      _ (b₃.move 1 .answers) :=
    .cons (.attend _ _) <| .cons (.hold _ (.device ⟨7⟩)) <| .cons hpoll <| .cons hdevice <|
      .cons (.pass (by decide +kernel) hsleeps) <| .single hgarage
  obtain ⟨hslots, hshown, _⟩ := Run.store_typed hrun
  have hslot : (b₃.move 1 .answers).store.get? 1 = some
      { kind := .device ⟨7⟩, snapshot := some (.device ⟨door, some (.garage default)⟩),
        polledAt := some 0 } := by
    decide +kernel
  have htells := hshown 1 (.device ⟨7⟩) (((hslots 1 _ hslot).1 _).mpr rfl)
  have hpaired := (hslots 1 _ hslot).2.paired _ rfl
  have hmodel : (b₃.move 1 .answers |>.render (.device ⟨7⟩) 1).model.isSome = true := by
    decide +kernel
  obtain ⟨m, hm⟩ := Option.isSome_iff_exists.mp hmodel
  refine ⟨_, _, _, m, hrun, ?_, hpaired.garage.mpr rfl, htells.loading_iff.mpr hmodel, hm,
    htells.tag m hm⟩
  rw [hslot]
  rfl

end HouseBoard
