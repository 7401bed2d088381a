/-
HouseBoard.Proofs.Sound — a task and its slot belong together.

A task is sound with respect to a slot when both are of one kind of view, the snapshot in the
slot is of that kind, and a fetch on its way agrees with a poll that knows the sections in the
slot.  Every step keeps every task sound, since nothing but the end of a fetch writes a
snapshot.  `Board.turn_cases` lists what a sound task can do in one move; what is proved of
slots follows from this list.
-/
import HouseBoard.Proofs.Pace

namespace HouseBoard

/-! ## Section 1 — snapshots of a kind -/

/-- Whether a snapshot is one of a kind of view. -/
def Snapshot.Suits : ViewKind → Snapshot → Prop
  | .home, .home _ => True
  | .ble, .ble _ => True
  | .garage, .garage _ => True
  | .heaters, .heaters _ => True
  | .alarm, .alarm _ => True
  | .device _, .device _ => True
  | _, _ => False

/-- What a view learns is of its kind. -/
theorem Poll.suits_of_learned? {p : Poll} {kind : ViewKind} {s : Snapshot}
    (h : p.learned? kind = some (some s)) : s.Suits kind := by
  have hplain {c : Call} {o : Option (Outcome c)} {f : c.Reply → Snapshot}
      (hmap : (o.map fun o => o.toOption.map f) = some (some s)) : ∃ a, s = f a := by
    obtain ⟨o', _, ho'⟩ := Option.map_eq_some_iff.mp hmap
    obtain ⟨a, _, rfl⟩ := Option.map_eq_some_iff.mp ho'
    exact ⟨a, rfl⟩
  cases kind with
  | home =>
    obtain ⟨o₁, o₂, o₃, o₄, _, _, _, _, hlearned⟩ := exists_of_learned?_home h
    unfold learnedHome at hlearned
    split at hlearned
    · cases hlearned
    · cases hlearned
      trivial
  | ble => obtain ⟨a, rfl⟩ := hplain h; trivial
  | garage => obtain ⟨a, rfl⟩ := hplain h; trivial
  | heaters => obtain ⟨a, rfl⟩ := hplain h; trivial
  | alarm => obtain ⟨a, rfl⟩ := hplain h; trivial
  | device did =>
    obtain ⟨state, _, ⟨_, rfl⟩ | ⟨owner, reply, _, _, rfl⟩⟩ := exists_of_learned?_device h
    · trivial
    · trivial

/-- Snapshots of views other than the home view have no sections. -/
theorem Snapshot.sections_of_suits {kind : ViewKind} {s : Snapshot} (h : s.Suits kind)
    (hkind : kind ≠ .home) : Snapshot.sections (some s) = {} := by
  cases s with
  | home sections =>
    cases kind with
    | home => exact absurd rfl hkind
    | _ => cases h
  | _ => rfl

/-! ## Section 2 — turns of a task -/

/-- What a task can do in one move, if a fetch that is on its way agrees with a poll. -/
inductive ViewTask.Turned (b : Board) (t : ViewTask) (p : Poll) :
    Move → List Effect → ViewTask → Prop where
  | idle {m : Move} {t' : ViewTask} (hm : m ≠ .poll) (hfetch : t'.fetch = t.fetch) :
      Turned b t p m [] t'
  | ticked {t' : ViewTask} (hfetch : t'.fetch = t.fetch) : Turned b t p .tick [.tick] t'
  | opened {es : List Effect} {t' : ViewTask} {f : Fetch} (hquiet : ∀ e ∈ es, e.isQuiet = true)
      (hfetch : t'.fetch = some f)
      (hagrees : f.Agrees
        ((Poll.unseen (Snapshot.sections (b.scene t.id).known)).see b.script es) t.kind) :
      Turned b t p .poll es t'
  | underway {es : List Effect} {t' : ViewTask} {f : Fetch}
      (hquiet : ∀ e ∈ es, e.isQuiet = true) (hbefore : t.fetch.isSome = true)
      (hfetch : t'.fetch = some f) (hagrees : f.Agrees (p.see b.script es) t.kind)
      (hsleeps : f.SleepsUntil (b.now + 1)) : Turned b t p .answers es t'
  | ended {es : List Effect} {t' : ViewTask} {learned : Option Snapshot}
      (hquiet : ∀ e ∈ es, e.isQuiet = true) (hbefore : t.fetch.isSome = true)
      (hfetch : t'.fetch = none) (hlearned : (p.see b.script es).learned? t.kind = some learned)
      (htaken : (p.see b.script es).taken = (p.see b.script es).settled t.kind) :
      Turned b t p .answers (es ++ (learned.map Effect.commit).toList) t'

/-- What a task can do in one move. -/
theorem Board.turn_cases (b : Board) (t : ViewTask) (m : Move) {p : Poll}
    (hp : ∀ f, t.fetch = some f → f.Agrees p t.kind) :
    t.Turned b p m (b.turn t m).2.effects (b.turn t m).1 := by
  cases m with
  | answers =>
    cases hf : t.fetch with
    | none =>
      have hproceed : t.proceed (b.scene t.id) = pure t := by simp only [ViewTask.proceed, hf]
      have hturn : b.turn t .answers = (t, { nextStamp := b.nextStamp }) := by
        rw [turn, ViewTask.move, hproceed]
        rfl
      rw [hturn]
      exact .idle (by decide) rfl
    | some f =>
      rcases b.turn_meets (m := .answers)
          (ViewTask.proceed_ensures hf (hp f hf) (b.scene t.id)) with
        ⟨f', heq, hagrees, hsleeps, hquiet⟩ | ⟨heq, learned, es, hes, hquiet, hlearned, htaken⟩
      · exact .underway hquiet (by rw [hf]; rfl) (by rw [heq]) hagrees hsleeps
      · rw [hes, Poll.see_commit] at hlearned htaken
        rw [hes]
        exact .ended hquiet (by rw [hf]; rfl) (by rw [heq]) hlearned htaken
  | poll =>
    obtain ⟨hquiet, f, heq, hagrees⟩ :=
      b.turn_meets (m := .poll) (t.startPoll_ensures b.intervals (b.scene t.id))
    exact .opened hquiet (by rw [heq]) hagrees
  | tick =>
    rcases b.turn_meets (m := .tick)
      (t.runTick_ensures b.intervals (b.scene t.id)) with ⟨_, hes, heq⟩ | ⟨_, hes, heq⟩
    · rw [hes]
      exact .ticked (by rw [heq])
    · rw [hes]
      exact .idle (by decide) (by rw [heq])
  | rest =>
    obtain ⟨hes, poll, tick, heq, _⟩ := b.turn_meets (m := .rest) t.setTimers_ensures
    rw [hes]
    exact .idle (by decide) (by rw [heq])

namespace ViewTask.Turned

variable {b : Board} {t t' : ViewTask} {p : Poll} {m : Move} {es : List Effect}

/-- A poll that starts puts a fetch on its way that knows what is known of the view. -/
theorem of_poll (h : t.Turned b p .poll es t') :
    (∀ e ∈ es, e.isQuiet = true) ∧ ∃ f, t'.fetch = some f ∧
      f.Agrees ((Poll.unseen (Snapshot.sections (b.scene t.id).known)).see b.script es)
        t.kind := by
  cases h with
  | idle hm hfetch => exact absurd rfl hm
  | opened hquiet hfetch hagrees => exact ⟨hquiet, _, hfetch, hagrees⟩

/-- When a fetch ends, what its poll has learned is kept. -/
theorem of_ended (h : t.Turned b p .answers es t') (hsome : t.fetch.isSome = true)
    (hnone : t'.fetch = none) :
    ∃ learned es₀, es = es₀ ++ (learned.map Effect.commit).toList ∧
      (∀ e ∈ es₀, e.isQuiet = true) ∧
      (p.see b.script es).learned? t.kind = some learned ∧
      (p.see b.script es).taken = (p.see b.script es).settled t.kind := by
  cases h with
  | idle hm hfetch =>
    rw [← hfetch, hnone] at hsome
    cases hsome
  | underway hquiet hbefore hfetch hagrees hsleeps =>
    rw [hnone] at hfetch
    cases hfetch
  | @ended es₀ _ learned hquiet hbefore hfetch hlearned htaken =>
    rw [Poll.see_commit]
    exact ⟨learned, es₀, rfl, hquiet, hlearned, htaken⟩

/-- However far the effects of a turn are performed, a slot stays as it is, is one second older,
or holds what the poll has learned. -/
theorem slot_cases {es' : List Effect} (h : t.Turned b p m es t') (hpart : es' <+: es)
    (wall : Int) (slot : Slot) :
    es'.foldl (Slot.take wall) slot = slot ∨ es'.foldl (Slot.take wall) slot = slot.tick ∨
      ∃ s es₀, (p.see b.script es₀).learned? t.kind = some (some s) ∧
        es'.foldl (Slot.take wall) slot = slot.commit wall s := by
  have hsame (hquiet : ∀ e ∈ es', e.isQuiet = true) : es'.foldl (Slot.take wall) slot = slot :=
    Slot.foldl_take_of_isQuiet hquiet wall slot
  cases h with
  | idle hm hfetch =>
    rw [List.prefix_nil.mp hpart]
    exact .inl rfl
  | ticked hfetch =>
    rw [← List.nil_append [Effect.tick]] at hpart
    rcases List.prefix_concat_iff.mp hpart with rfl | hpart
    · exact .inr (.inl rfl)
    · rw [List.prefix_nil.mp hpart]
      exact .inl rfl
  | opened hquiet hfetch hagrees => exact .inl (hsame fun e he => hquiet e (hpart.subset he))
  | underway hquiet hbefore hfetch hagrees hsleeps =>
    exact .inl (hsame fun e he => hquiet e (hpart.subset he))
  | @ended es₀ _ learned hquiet hbefore hfetch hlearned htaken =>
    cases learned with
    | none =>
      rw [Option.map_none, Option.toList_none, List.append_nil] at hpart
      exact .inl (hsame fun e he => hquiet e (hpart.subset he))
    | some s =>
      rcases List.prefix_concat_iff.mp hpart with rfl | hpart
      · refine .inr (.inr ⟨s, es₀, hlearned, ?_⟩)
        rw [List.foldl_append, Slot.foldl_take_of_isQuiet hquiet]
        rfl
      · exact .inl (hsame fun e he => hquiet e (hpart.subset he))

/-- What a task does up to a failure leaves its slot alone: a state is kept last of all. -/
theorem isQuiet_of_failure {es₀ : List Effect} {c : Call} {e : RpcError}
    (h : t.Turned b p m es t') (hlast : Effect.upToReport es = es₀ ++ [.fail c e]) :
    ∀ x ∈ Effect.upToReport es, x.isQuiet = true := by
  have hpart := Effect.upToReport_prefix es
  rw [hlast] at hpart ⊢
  have hbefore {es' : List Effect} {last : Effect}
    (hpart : es₀ ++ [.fail c e] <+: es' ++ [last])
      (hlast : Effect.fail c e ≠ last) : es₀ ++ [.fail c e] <+: es' := by
    rcases List.prefix_concat_iff.mp hpart with heq | hpart
    · exact absurd (List.singleton_inj.mp (List.append_inj' heq rfl).2) hlast
    · exact hpart
  cases h with
  | idle hm hfetch => simp at hpart
  | ticked hfetch =>
    have hnil : es₀ ++ [.fail c e] <+: [] := hbefore hpart nofun
    simp at hnil
  | opened hquiet hfetch hagrees => exact fun x hx => hquiet x (hpart.subset hx)
  | underway hquiet hbefore hfetch hagrees hsleeps =>
    exact fun x hx => hquiet x (hpart.subset hx)
  | @ended es' _ learned hquiet _ hfetch hlearned htaken =>
    cases learned with
    | none =>
      rw [Option.map_none, Option.toList_none, List.append_nil] at hpart
      exact fun x hx => hquiet x (hpart.subset hx)
    | some s => exact fun x hx => hquiet x ((hbefore hpart nofun).subset hx)

end ViewTask.Turned

/-! ## Section 3 — sound tasks -/

/-- A task and a slot belong to one view, and a fetch on its way knows what the slot holds. -/
structure ViewTask.Sound (t : ViewTask) (slot : Slot) : Prop where
  kind_eq : slot.kind = t.kind
  suits : ∀ s, slot.snapshot = some s → s.Suits t.kind
  agrees : ∀ f, t.fetch = some f → ∃ p, f.Agrees p t.kind ∧
    p.known = Snapshot.sections slot.snapshot

/-- Every task has a slot with which it is sound. -/
def Board.Sound (b : Board) : Prop :=
  ∀ id t, b.task? id = some t → ∃ slot, b.store.get? id = some slot ∧ t.Sound slot

/-- A poll that agrees with the fetch of a sound task, if there is one. -/
theorem ViewTask.Sound.exists_poll {t : ViewTask} {slot : Slot} (hs : t.Sound slot) :
    ∃ p : Poll, (∀ f, t.fetch = some f → f.Agrees p t.kind) ∧
    p.known = Snapshot.sections slot.snapshot := by
  cases hf : t.fetch with
  | none => exact ⟨.unseen (Snapshot.sections slot.snapshot), (fun _ h => nomatch h), rfl⟩
  | some f =>
    obtain ⟨p, hagrees, hknown⟩ := hs.agrees f hf
    exact ⟨p, fun f' hf' => Option.some.inj hf' ▸ hagrees, hknown⟩

/-- A task stays sound when the slot holds what it held, and a fetch on its way knows it. -/
theorem ViewTask.Sound.keep {t t' : ViewTask} {slot slot' : Slot} (hs : t.Sound slot)
    (hkind : t'.kind = t.kind) (hslot : slot'.kind = slot.kind)
    (hsnapshot : slot'.snapshot = slot.snapshot)
    (hfetch : ∀ f, t'.fetch = some f → ∃ p, f.Agrees p t.kind ∧
      p.known = Snapshot.sections slot.snapshot) :
    t'.Sound slot' where
  kind_eq := hslot.trans (hs.kind_eq.trans hkind.symm)
  suits := by
    rw [hsnapshot, hkind]
    exact hs.suits
  agrees := by
    rw [hsnapshot, hkind]
    exact hfetch

/-- A turn of a sound task leaves it sound with the slot as its effects leave it. -/
theorem ViewTask.Turned.sound {b : Board} {t t' : ViewTask} {p : Poll} {m : Move}
    {es : List Effect} {slot : Slot} (h : t.Turned b p m es t') (hkind : t'.kind = t.kind)
    (hslot : b.store.get? t.id = some slot) (hs : t.Sound slot)
    (hknown : p.known = Snapshot.sections slot.snapshot) (wall : Int) :
    t'.Sound (es.foldl (Slot.take wall) slot) := by
  cases h with
  | idle hm hfetch => exact hs.keep hkind rfl rfl (hfetch ▸ hs.agrees)
  | ticked hfetch => exact hs.keep hkind rfl rfl (hfetch ▸ hs.agrees)
  | opened hquiet hfetch hagrees =>
    rw [Slot.foldl_take_of_isQuiet hquiet]
    refine hs.keep hkind rfl rfl fun f' hf' => ?_
    cases Option.some.inj (hfetch.symm.trans hf')
    exact ⟨_, hagrees, by simp [Poll.unseen, Board.scene, hslot]⟩
  | underway hquiet hbefore hfetch hagrees hsleeps =>
    rw [Slot.foldl_take_of_isQuiet hquiet]
    refine hs.keep hkind rfl rfl fun f' hf' => ?_
    cases Option.some.inj (hfetch.symm.trans hf')
    exact ⟨_, hagrees, hknown⟩
  | @ended es₀ _ learned hquiet hbefore hfetch hlearned htaken =>
    rw [List.foldl_append, Slot.foldl_take_of_isQuiet hquiet]
    have hnone (f : Fetch) : t'.fetch ≠ some f := by simp [hfetch]
    cases learned with
    | none => exact hs.keep hkind rfl rfl fun f hf => absurd hf (hnone f)
    | some s =>
      refine ⟨hs.kind_eq.trans hkind.symm, fun s' hs' => ?_, fun f hf => absurd hf (hnone f)⟩
      cases hs'
      rw [hkind]
      exact Poll.suits_of_learned? hlearned

/-! ## Section 4 — steps and runs -/

/-- Every step keeps every task sound. -/
theorem Step.sound {b b' : Board} {x : Happening} (h : Step b x b') (htidy : b.Tidy)
    (hb : b.Sound) : b'.Sound := by
  intro id t' ht'
  cases h.origin htidy ht' with
  | other hx ht hslot =>
    rw [hslot]
    exact hb id t' ht
  | mounted hid hslot => exact ⟨_, hslot, rfl, by simp, by simp⟩
  | @dropped t ht hslot =>
    obtain ⟨slot, hslot₀, hs⟩ := hb id t ht
    exact ⟨slot, hslot.trans hslot₀, hs.kind_eq, hs.suits, hs.agrees⟩
  | @moved t m ht hallows hslot =>
    obtain ⟨slot, hslot₀, hs⟩ := hb id t ht
    obtain ⟨p, hp, hknown⟩ := hs.exists_poll
    rw [hslot₀] at hslot
    refine ⟨_, hslot, ?_⟩
    exact (b.turn_cases t m hp).sound (b.turn_kind t m)
      ((Board.task?_id ht).symm ▸ hslot₀) hs hknown b.wall

/-- A task that cannot go on leaves its slot as it was. -/
theorem Step.slot_of_fell {b b' : Board} {id : ViewId} {w : Moment} (h : Step b (.fell id w) b')
    (hb : b.Sound) : b'.store.get? id = b.store.get? id := by
  obtain ⟨_, t, m, ht, _, _, ⟨es, c, e, hlast⟩, hslot, _⟩ := h.failure_of_fell
  obtain ⟨_, _, hs⟩ := hb id t ht
  obtain ⟨p, hp, _⟩ := hs.exists_poll
  have hquiet := (b.turn_cases t m hp).isQuiet_of_failure hlast
  simp only [hslot, Slot.foldl_take_of_isQuiet hquiet, Option.map_id']

theorem Board.sound_start (s : Settings) (intervals : Intervals) (wall : Int)
    (firstToast : Uuid) :
    (start s intervals wall firstToast).Sound := fun _ _ h => nomatch h

theorem Run.sound {b b' : Board} {h : List Happening} (hrun : Run b h b') (htidy : b.Tidy)
    (hb : b.Sound) : b'.Sound :=
  (hrun.preserves (P := fun b => b.Tidy ∧ b.Sound)
    (fun _ _ _ hb hstep => ⟨hstep.tidy hb.1, hstep.sound hb.1 hb.2⟩) ⟨htidy, hb⟩).2

end HouseBoard
