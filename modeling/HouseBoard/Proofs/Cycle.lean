/-
HouseBoard.Proofs.Cycle — what one poll after the other leaves in a slot.

A cycle of a view begins when a poll opens and ends when it closes; in between, anything may
happen to anything else.  `Board.poll` is the poll of a cycle as it is seen in the happenings,
so that the answers of a cycle are those that came while it lasted.  Until the cycle ends its
view only gets older.  Then a poll that failed leaves the slot alone, and one of the home view
puts each answer in the place of its section and leaves the other sections as they stand in the
slot.  So nothing that was once known is lost.
-/
import HouseBoard.Proofs.Sound

namespace HouseBoard

/-! ## Section 1 — slots that grow older -/

/-- A slot some seconds later. -/
def Slot.aged (s : Slot) : Nat → Slot
  | 0 => s
  | n + 1 => (s.aged n).tick

/-- Seconds that pass after others pass in addition to them. -/
theorem Slot.aged_add (s : Slot) (m n : Nat) : s.aged (m + n) = (s.aged m).aged n := by
  induction n with
  | zero => rfl
  | succ n ih => rw [← Nat.add_assoc, aged, ih, aged]

/-- A slot that grows older holds what it held. -/
theorem Slot.aged_frame (s : Slot) (n : Nat) :
    (s.aged n).kind = s.kind ∧ (s.aged n).snapshot = s.snapshot ∧
    (s.aged n).polledAt = s.polledAt := by
  induction n with
  | zero => exact ⟨rfl, rfl, rfl⟩
  | succ n ih => exact ih

namespace Happening

/-- What the task of a view does at a happening. -/
def effectsOf (id : ViewId) : Happening → List Effect
  | .moved j _ _ es _ => if j = id then es else []
  | _ => []

/-- What the task of a view does in the course of a run. -/
def effects (id : ViewId) (h : List Happening) : List Effect := h.flatMap (effectsOf id)

/-- The seconds that pass for a view in the course of a run. -/
def ticks (id : ViewId) (h : List Happening) : Nat := (effects id h).count .tick

variable {id : ViewId}

theorem effects_append (h h' : List Happening) :
    effects id (h ++ h') = effects id h ++ effects id h' :=
  List.flatMap_append

theorem ticks_append (h h' : List Happening) :
    ticks id (h ++ h') = ticks id h + ticks id h' := by
  rw [ticks, effects_append, List.count_append]
  rfl

theorem effectsOf_of_other {x : Happening} (hx : x.isOf id = false) : x.effectsOf id = [] := by
  simp only [isOf, beq_eq_false_iff_ne, ne_eq] at hx
  cases x with
  | moved j m w es ended => exact if_neg fun h => hx (congrArg some h)
  | _ => rfl

@[simp] theorem effects_moved (m : Move) (w : Moment) (es : List Effect) (ended : Bool) :
    effects id [.moved id m w es ended] = es := by
  simp [effects, effectsOf]

end Happening

/-- No second passes in effects that are quiet. -/
theorem Effect.count_tick_of_isQuiet {es : List Effect} (h : ∀ e ∈ es, e.isQuiet = true) :
    es.count .tick = 0 := by
  rw [List.count_eq_zero]
  intro hmem
  cases h _ hmem

/-! ## Section 2 — polls seen in happenings -/

namespace Poll

/-- A poll of a view after something happened. -/
def watch (id : ViewId) (p : Poll) : Happening → Poll
  | .moved j _ w es _ => if j = id then p.see w.script es else p
  | _ => p

@[simp] theorem watch_moved (id : ViewId) (p : Poll) (m : Move) (w : Moment) (es : List Effect)
    (ended : Bool) :
    p.watch id (.moved id m w es ended) = p.see w.script es := if_pos rfl

theorem watch_of_other {id : ViewId} (p : Poll) {x : Happening} (hx : x.isOf id = false) :
    p.watch id x = p := by
  simp only [Happening.isOf, beq_eq_false_iff_ne, ne_eq] at hx
  cases x with
  | moved j m w es ended => exact if_neg fun h => hx (congrArg some h)
  | _ => rfl

@[simp] theorem see_nil (p : Poll) (s : Script) : p.see s [] = p := by
  simp [see, settlements_nil]

@[simp] theorem see_tick (p : Poll) (s : Script) : p.see s [.tick] = p := by
  simp [see, Script.answer?, settlements, Effect.isSettlement]

/-- Whether a call was answered by a failure. -/
def Failed (p : Poll) (c : Call) : Prop := ∃ e, p.answers c = some (.error e)

/-- The answer to a call that succeeded. -/
def fresh? (p : Poll) (c : Call) : Option c.Reply := (p.answers c).bind Except.toOption

/-- Whether a poll brings nothing: its call failed, one of its two calls if it is of a device,
or all of its four calls if it is of the home view. -/
def Fails (p : Poll) : ViewKind → Prop
  | .home => p.Failed .heaters ∧ p.Failed .alarm ∧ p.Failed .devicesWithAlert ∧ p.Failed .ble
  | .ble => p.Failed .ble
  | .garage => p.Failed .garage
  | .heaters => p.Failed .heaters
  | .alarm => p.Failed .alarm
  | .device did =>
    p.Failed (.device did) ∨
      ∃ state owner, p.answers (.device did) = some (.ok state) ∧ Owner.of? state = some owner ∧
      p.Failed owner.call

theorem failed_iff {p : Poll} {c : Call} {o : Outcome c} (h : p.answers c = some o) :
    p.Failed c ↔ o.toOption = none := by
  cases o with
  | ok a => simp [Failed, h, Except.toOption]
  | error e => simp [Failed, h, Except.toOption]

/-- The view of one call learns nothing exactly if the call failed. -/
theorem eq_none_iff_failed {p : Poll} {c : Call} {f : c.Reply → Snapshot}
    {learned : Option Snapshot}
    (h : ((p.answers c).map fun o => o.toOption.map f) = some learned) :
    learned = none ↔ p.Failed c := by
  obtain ⟨o, ho, rfl⟩ := Option.map_eq_some_iff.mp h
  rw [failed_iff ho, Option.map_eq_none_iff]

/-- A poll learns nothing exactly if it brings nothing. -/
theorem eq_none_iff_fails {p : Poll} {kind : ViewKind} {learned : Option Snapshot}
    (h : p.learned? kind = some learned) : learned = none ↔ p.Fails kind := by
  cases kind with
  | home =>
    obtain ⟨o₁, o₂, o₃, o₄, h₁, h₂, h₃, h₄, rfl⟩ := exists_of_learned?_home h
    rw [Fails, failed_iff h₁, failed_iff h₂, failed_iff h₃, failed_iff h₄]
    simp [learnedHome, freshHome]
  | ble => exact eq_none_iff_failed h
  | garage => exact eq_none_iff_failed h
  | heaters => exact eq_none_iff_failed h
  | alarm => exact eq_none_iff_failed h
  | device did =>
    simp only [learned?] at h
    simp only [Fails]
    split at h
    · cases h
    · rename_i e he
      cases h
      exact ⟨fun _ => .inl ⟨e, he⟩, fun _ => rfl⟩
    · rename_i state hstate
      have hnot : ¬ p.Failed (.device did) := by
        rw [failed_iff hstate]
        simp [Except.toOption]
      split at h
      · rename_i hnone
        cases h
        constructor
        · intro h
          cases h
        · rintro (hfailed | ⟨state', owner, hstate', howner, _⟩)
          · exact absurd hfailed hnot
          · rw [hstate] at hstate'
            cases hstate'
            rw [hnone] at howner
            cases howner
      · rename_i owner howner
        rw [eq_none_iff_failed h]
        constructor
        · intro hfailed
          exact .inr ⟨state, owner, hstate, howner, hfailed⟩
        · rintro (hfailed | ⟨state', owner', hstate', howner', hfailed⟩)
          · exact absurd hfailed hnot
          · rw [hstate] at hstate'
            cases hstate'
            rw [howner] at howner'
            cases howner'
            exact hfailed

end Poll

/-- The sections after a poll of the home view: the answer of each call that succeeded, and the
section that was there where the call failed. -/
structure HomeSnapshot.Renews (p : Poll) (old new : HomeSnapshot) : Prop where
  heaters : new.heaters = (p.fresh? .heaters).or old.heaters
  alarm : new.alarm = (p.fresh? .alarm).or old.alarm
  devicesWithAlert : new.devicesWithAlert = (p.fresh? .devicesWithAlert).or old.devicesWithAlert
  ble : new.ble = (p.fresh? .ble).or old.ble

/-- The home view learns the sections that its poll renews. -/
theorem Poll.renews_of_learned? {p : Poll} {s : Snapshot}
    (h : p.learned? .home = some (some s)) : ∃ new, s = .home new ∧ p.known.Renews p new := by
  obtain ⟨o₁, o₂, o₃, o₄, h₁, h₂, h₃, h₄, hlearned⟩ := exists_of_learned?_home h
  rw [learnedHome] at hlearned
  split at hlearned
  · cases hlearned
  · cases hlearned
    refine ⟨_, rfl, ?_, ?_, ?_, ?_⟩
    · simp [HomeSnapshot.updated, freshHome, fresh?, h₁, Option.orElse_eq_or]
    · simp [HomeSnapshot.updated, freshHome, fresh?, h₂, Option.orElse_eq_or]
    · simp [HomeSnapshot.updated, freshHome, fresh?, h₃, Option.orElse_eq_or]
    · simp [HomeSnapshot.updated, freshHome, fresh?, h₄, Option.orElse_eq_or]

/-! ## Section 3 — while a fetch is on its way -/

/-- A poll of a view is on its way, and the slot is as old as it is. -/
def Board.Polls (b : Board) (id : ViewId) (kind : ViewKind) (p : Poll) (slot : Slot) : Prop :=
  ∀ t, b.task? id = some t →
    t.kind = kind ∧ (∃ f, t.fetch = some f ∧ f.Agrees p kind) ∧ b.store.get? id = some slot

/-- A turn that does not end the fetch on its way goes on with its poll, and at most lets the
slot grow older. -/
theorem ViewTask.Turned.polls {b : Board} {t t' : ViewTask} {p : Poll} {m : Move}
    {es : List Effect} {f : Fetch} (h : t.Turned b p m es t') (hallows : t.Allows b.now m)
    (hf : t.fetch = some f) (hp : f.Agrees p t.kind)
    (hended : (t.fetch.isSome && t'.fetch.isNone) = false) (wall : Int) (slot : Slot) :
    (∃ f', t'.fetch = some f' ∧ f'.Agrees (p.see b.script es) t.kind) ∧
      es.foldl (Slot.take wall) slot = slot.aged (es.count .tick) := by
  cases h with
  | idle hm hfetch =>
    rw [Poll.see_nil]
    exact ⟨⟨f, hfetch.trans hf, hp⟩, rfl⟩
  | ticked hfetch =>
    rw [Poll.see_tick]
    exact ⟨⟨f, hfetch.trans hf, hp⟩, rfl⟩
  | opened hquiet hfetch hagrees =>
    -- no poll starts while a fetch is on its way
    simp [ViewTask.Allows, ViewTask.pollsAt, hf] at hallows
  | @underway _ _ f' hquiet hbefore hfetch hagrees hsleeps =>
    rw [Slot.foldl_take_of_isQuiet hquiet, Effect.count_tick_of_isQuiet hquiet]
    exact ⟨⟨f', hfetch, hagrees⟩, rfl⟩
  | ended hquiet hbefore hfetch hlearned htaken =>
    rw [hf, hfetch] at hended
    cases hended

/-- A step that does not end the poll of a view goes on with it, and at most lets the
slot grow older. -/
theorem Step.polls {b b' : Board} {x : Happening} {id : ViewId} {kind : ViewKind}
    {p : Poll} {slot : Slot} (h : Step b x b') (htidy : b.Tidy) (hid : id < b.nextId)
    (hclosed : Happening.closes id [x] = []) (hb : b.Polls id kind p slot) :
    b'.Polls id kind (p.watch id x) (slot.aged (Happening.ticks id [x])) := by
  intro t' ht'
  cases h.origin htidy ht' with
  | other hx ht hslot =>
    have hnone : Happening.effects id [x] = [] := by
      simp [Happening.effects, Happening.effectsOf_of_other hx]
    rw [p.watch_of_other hx, hslot, Happening.ticks, hnone]
    exact hb t' ht
  | mounted hnext => exact absurd hnext (Nat.ne_of_lt hid)
  | @dropped t ht hslot =>
    rw [hslot]
    exact hb t ht
  | @moved t m ht hallows hslot' =>
    obtain ⟨rfl, ⟨f, hf, hagrees⟩, hslot⟩ := hb t ht
    have hfalse : (t.fetch.isSome && (b.turn t m).1.fetch.isNone) = false := by
      cases hended : t.fetch.isSome && (b.turn t m).1.fetch.isNone with
      | false => rfl
      | true => simp [Happening.closes, Happening.closedAt?, hended] at hclosed
    have hturn := b.turn_cases t m (p := p) fun f' hf' => by
      rw [hf] at hf'
      cases hf'
      exact hagrees
    obtain ⟨hfetch, hold⟩ := hturn.polls hallows hf hagrees hfalse b.wall slot
    rw [Poll.watch_moved, Happening.ticks, Happening.effects_moved]
    refine ⟨b.turn_kind t m, hfetch, ?_⟩
    rw [hslot', hslot, Option.map_some, hold]

/-- A run in which the poll of a view does not end goes on with it, and at most lets the
slot grow older. -/
theorem Run.polls {b b' : Board} {h : List Happening} {id : ViewId} {kind : ViewKind}
    {p : Poll} {slot : Slot} (hrun : Run b h b') (htidy : b.Tidy) (hid : id < b.nextId)
    (hclosed : Happening.closes id h = []) (hb : b.Polls id kind p slot) :
    b'.Polls id kind (h.foldl (Poll.watch id) p) (slot.aged (Happening.ticks id h)) := by
  induction hrun with
  | refl => exact hb
  | @step b₁ b₂ h₁ x hrun₁ hstep ih =>
    rw [Happening.closes_append, List.append_eq_nil_iff] at hclosed
    rw [List.foldl_append, Happening.ticks_append, Slot.aged_add]
    exact hstep.polls (hrun₁.tidy htidy)
      (Nat.lt_of_lt_of_le hid hrun₁.nextId_le) hclosed.2 (ih hclosed.1)

/-! ## Section 4 — cycles -/

/-- A poll of a view opens on one board, something happens, and on another board it closes,
which gives a third one. -/
inductive Cycle (id : ViewId) : Board → List Happening → Board → Board → Prop where
  | mk {b b₁ b₂ b₃ : Board} {h : List Happening} {w w' : Moment} {es es' : List Effect}
      (hopen : Step b (.moved id .poll w es false) b₁) (hrun : Run b₁ h b₂)
      (hclosed : Happening.closes id h = [])
      (hclose : Step b₂ (.moved id .answers w' es' true) b₃) :
      Cycle id b (.moved id .poll w es false :: (h ++ [.moved id .answers w' es' true])) b₂ b₃

/-- A poll that may open and one that may close then make a cycle. -/
theorem Cycle.of_canMove {id : ViewId} {b b₂ : Board} {h : List Happening}
    (hopen : b.canMove id .poll = true) (hrun : Run (b.move id .poll) h b₂)
    (hclosed : Happening.closes id h = []) (hclose : b₂.canMove id .answers = true)
    (hended : ((b₂.task? id).any fun t => t.fetch.isSome &&
      (b₂.turn t .answers).1.fetch.isNone) = true) :
    Cycle id b (b.moving id .poll :: (h ++ [b₂.moving id .answers])) b₂
      (b₂.move id .answers) := by
  have hbegun : ((b.task? id).any fun t => t.fetch.isSome && (b.turn t .poll).1.fetch.isNone) =
      false := by
    cases b.task? id with
    | none => rfl
    | some t =>
      have hsome := (b.turn_poll t).2.2
      rw [Option.any_some, Option.isNone_eq_false_iff.mpr hsome, Bool.and_false]
  have hopening := Step.of_canMove hopen
  have hclosing := Step.of_canMove hclose
  unfold Board.moving at hopening hclosing ⊢
  rw [hbegun] at hopening ⊢
  rw [hended] at hclosing ⊢
  exact .mk hopening hrun hclosed hclosing

/-- The poll that opens for a view on a board, after what is seen to happen. -/
def Board.poll (b : Board) (id : ViewId) (h : List Happening) : Poll :=
  h.foldl (Poll.watch id) (Poll.unseen (Snapshot.sections (b.scene id).known))

theorem Poll.foldl_watch_known (id : ViewId) (p : Poll) (h : List Happening) :
    (h.foldl (Poll.watch id) p).known = p.known := by
  induction h generalizing p with
  | nil => rfl
  | cons x xs ih =>
    rw [List.foldl_cons, ih]
    cases hx : x.isOf id with
    | false => rw [p.watch_of_other hx]
    | true =>
      cases x with
      | moved j m w es ended =>
        simp only [watch]
        split
        · rfl
        · rfl
      | _ => rfl

/-- A poll knows the sections that are in the slot when it opens. -/
theorem Board.poll_known {b : Board} {id : ViewId} {slot : Slot}
    (hslot : b.store.get? id = some slot) (h : List Happening) :
    (b.poll id h).known = Snapshot.sections slot.snapshot := by
  rw [poll, Poll.foldl_watch_known]
  simp [Poll.unseen, scene, hslot]

/-- A poll that opens is on its way. -/
theorem Step.polls_of_open {b b' : Board} {id : ViewId} {w : Moment} {es : List Effect}
    (h : Step b (.moved id .poll w es false) b') (htidy : b.Tidy) (hsound : b.Sound) :
    ∃ slot, b.store.get? id = some slot ∧ id < b.nextId ∧ es.count .tick = 0 ∧
      b'.Polls id slot.kind
        ((Poll.unseen (Snapshot.sections (b.scene id).known)).see w.script es) slot := by
  obtain ⟨t, ht, _, _, rfl, hes, _, htask, hstore, _⟩ := h.of_moved
  obtain ⟨slot, hslot, hs⟩ := hsound id t ht
  obtain ⟨p, hp, _⟩ := hs.exists_poll
  have hid := Board.task?_id ht
  have hturn := b.turn_cases t .poll hp
  rw [← hes] at hturn
  obtain ⟨hquiet, f, hfetch, hagrees⟩ := hturn.of_poll
  rw [hid, ← hs.kind_eq] at hagrees
  refine ⟨slot, hslot, hid ▸ htidy.tasks_lt t (Board.task?_mem ht),
    Effect.count_tick_of_isQuiet hquiet, ?_⟩
  intro u hu
  rw [htask] at hu
  cases hu
  rw [hstore, hslot, Option.map_some, Slot.foldl_take_of_isQuiet hquiet]
  exact ⟨(b.turn_kind t .poll).trans hs.kind_eq.symm, ⟨f, hfetch, hagrees⟩, rfl⟩

/-- A poll that is opened and not closed is on its way, as it was seen since. -/
theorem Run.polls_of_open {b b₁ b₂ : Board} {id : ViewId} {w : Moment} {es : List Effect}
    {h : List Happening} (hopen : Step b (.moved id .poll w es false) b₁) (hrun : Run b₁ h b₂)
    (hclosed : Happening.closes id h = []) (htidy : b.Tidy) (hsound : b.Sound) :
    ∃ slot, b.store.get? id = some slot ∧ es.count .tick = 0 ∧
      b₂.Polls id slot.kind (b.poll id (.moved id .poll w es false :: h))
        (slot.aged (Happening.ticks id h)) := by
  obtain ⟨slot, hslot, hlt, hfirst, hpolls⟩ := hopen.polls_of_open htidy hsound
  refine ⟨slot, hslot, hfirst, ?_⟩
  rw [Board.poll, List.foldl_cons, Poll.watch_moved]
  exact hrun.polls (hopen.tidy htidy) (Nat.lt_of_lt_of_le hlt hopen.nextId_le) hclosed hpolls

/-- The effects with which a poll closes say what it has learned, and all of its answers
have been taken up. -/
theorem Step.ended_of_close {b b' : Board} {id : ViewId} {kind : ViewKind} {p : Poll}
    {slot : Slot} {w : Moment} {es : List Effect} (h : Step b (.moved id .answers w es true) b')
    (hb : b.Polls id kind p slot) :
    b.store.get? id = some slot ∧ b'.store.get? id = some (es.foldl (Slot.take b.wall) slot) ∧
      ∃ learned es₀, es = es₀ ++ (learned.map Effect.commit).toList ∧
        (∀ e ∈ es₀, e.isQuiet = true) ∧
        (p.see w.script es).learned? kind = some learned ∧
          (p.see w.script es).taken = (p.see w.script es).settled kind := by
  obtain ⟨t, ht, _, _, rfl, hes, hended, _, hstore, _⟩ := h.of_moved
  obtain ⟨rfl, ⟨f, hf, hagrees⟩, hslot⟩ := hb t ht
  rw [hslot, Option.map_some] at hstore
  have hturn := b.turn_cases t .answers fun f' hf' => by
    rw [hf] at hf'
    cases hf'
    exact hagrees
  rw [← hes] at hturn
  obtain ⟨hsome, hnone⟩ := Bool.and_eq_true_iff.mp hended.symm
  exact ⟨hslot, hstore, hturn.of_ended hsome (Option.isNone_iff_eq_none.mp hnone)⟩

/-- A poll that closes keeps what it has learned. -/
theorem Step.slot_of_close {b b' : Board} {id : ViewId} {kind : ViewKind} {p : Poll}
    {slot : Slot} {w : Moment} {es : List Effect} (h : Step b (.moved id .answers w es true) b')
    (hb : b.Polls id kind p slot) :
    ∃ learned, b.store.get? id = some slot ∧ es.count .tick = 0 ∧
      (p.see w.script es).learned? kind = some learned ∧
      b'.store.get? id =
        some ((learned.map Effect.commit).toList.foldl (Slot.take b.wall) slot) := by
  obtain ⟨hslot, hstore, learned, es₀, rfl, hquiet, hlearned, _⟩ := h.ended_of_close hb
  refine ⟨learned, hslot, ?_, hlearned, ?_⟩
  · rw [List.count_append, Effect.count_tick_of_isQuiet hquiet]
    cases learned <;> rfl
  · rw [hstore, List.foldl_append, Slot.foldl_take_of_isQuiet hquiet]

/-- What is seen of a poll last is seen in addition to what was seen before. -/
theorem Board.poll_concat (b : Board) (id : ViewId) (h : List Happening) (m : Move) (w : Moment)
    (es : List Effect) (ended : Bool) : b.poll id (h ++ [.moved id m w es ended]) =
      (b.poll id h).see w.script es := by
  simp only [poll, List.foldl_append, List.foldl_cons, List.foldl_nil, Poll.watch_moved]

/-- What a cycle does to the slot of its view: until it ends the slot grows older, and then what
the poll has learned is kept. -/
theorem Cycle.slot {id : ViewId} {b b₂ b₃ : Board} {h : List Happening}
    (hcycle : Cycle id b h b₂ b₃) (htidy : b.Tidy) (hsound : b.Sound) :
    ∃ slot learned, b.store.get? id = some slot ∧
      b₂.store.get? id = some (slot.aged (Happening.ticks id h)) ∧
      (b.poll id h).learned? slot.kind = some learned ∧
      b₃.store.get? id =
        some ((learned.map Effect.commit).toList.foldl (Slot.take b₂.wall)
          (slot.aged (Happening.ticks id h))) := by
  cases hcycle with
  | @mk b₁ _ _ h w w' es es' hopen hrun hclosed hclose =>
    obtain ⟨slot, hslot, hfirst, hpolls⟩ := hrun.polls_of_open hopen hclosed htidy hsound
    obtain ⟨learned, hslot₂, hlast, hlearned, hslot₃⟩ := hclose.slot_of_close hpolls
    have hticks : Happening.ticks id
      (.moved id .poll w es false :: (h ++ [.moved id .answers w' es' true])) =
        Happening.ticks id h := by
      rw [← List.singleton_append, Happening.ticks_append, Happening.ticks_append]
      simp only [Happening.ticks, Happening.effects_moved, hfirst, hlast,
        Nat.zero_add, Nat.add_zero]
    rw [hticks, ← List.cons_append, b.poll_concat]
    exact ⟨slot, learned, hslot, hslot₂, hlearned, hslot₃⟩

/-! ## Section 5 — nothing is lost -/

/-- Each section that was there is there still. -/
structure HomeSnapshot.CoveredBy (old new : HomeSnapshot) : Prop where
  heaters : old.heaters.isSome = true → new.heaters.isSome = true
  alarm : old.alarm.isSome = true → new.alarm.isSome = true
  devicesWithAlert : old.devicesWithAlert.isSome = true → new.devicesWithAlert.isSome = true
  ble : old.ble.isSome = true → new.ble.isSome = true

theorem HomeSnapshot.CoveredBy.refl (s : HomeSnapshot) : s.CoveredBy s := ⟨id, id, id, id⟩

theorem HomeSnapshot.CoveredBy.trans {s₁ s₂ s₃ : HomeSnapshot} (h : s₁.CoveredBy s₂)
    (h' : s₂.CoveredBy s₃) : s₁.CoveredBy s₃ :=
  ⟨h'.heaters ∘ h.heaters, h'.alarm ∘ h.alarm, h'.devicesWithAlert ∘ h.devicesWithAlert,
    h'.ble ∘ h.ble⟩

/-- A poll that renews sections loses none. -/
theorem HomeSnapshot.Renews.covers {p : Poll} {old new : HomeSnapshot} (h : old.Renews p new) :
    old.CoveredBy new where
  heaters hsome := by rw [h.heaters, Option.isSome_or, hsome, Bool.or_true]
  alarm hsome := by rw [h.alarm, Option.isSome_or, hsome, Bool.or_true]
  devicesWithAlert hsome := by rw [h.devicesWithAlert, Option.isSome_or, hsome, Bool.or_true]
  ble hsome := by rw [h.ble, Option.isSome_or, hsome, Bool.or_true]

/-- A slot that had a snapshot has one still, with each section that was there. -/
structure Slot.CoveredBy (old new : Slot) : Prop where
  snapshot : old.snapshot.isSome = true → new.snapshot.isSome = true
  sections : (Snapshot.sections old.snapshot).CoveredBy (Snapshot.sections new.snapshot)

theorem Slot.CoveredBy.refl (s : Slot) : s.CoveredBy s := ⟨id, .refl _⟩

theorem Slot.CoveredBy.trans {s₁ s₂ s₃ : Slot} (h : s₁.CoveredBy s₂) (h' : s₂.CoveredBy s₃) :
    s₁.CoveredBy s₃ :=
  ⟨h'.snapshot ∘ h.snapshot, h.sections.trans h'.sections⟩

/-- What a view learns covers what is in its slot. -/
theorem ViewTask.Sound.covers_commit {t : ViewTask} {slot : Slot} {p : Poll} {s : Snapshot}
    (hs : t.Sound slot) (hknown : p.known = Snapshot.sections slot.snapshot)
    (hlearned : p.learned? t.kind = some (some s)) (wall : Int) :
    slot.CoveredBy (slot.commit wall s) where
  snapshot _ := rfl
  sections := by
    by_cases hkind : t.kind = .home
    · rw [hkind] at hlearned
      obtain ⟨new, rfl, hrenews⟩ := Poll.renews_of_learned? hlearned
      rw [hknown] at hrenews
      exact hrenews.covers
    · have hempty : Snapshot.sections slot.snapshot = {} := by
        cases hsnapshot : slot.snapshot with
        | none => rfl
        | some s' => exact Snapshot.sections_of_suits (hs.suits s' hsnapshot) hkind
      rw [hempty]
      exact ⟨nofun, nofun, nofun, nofun⟩

/-- A turn loses nothing, however far its effects are performed. -/
theorem ViewTask.Turned.covers {b : Board} {t t' : ViewTask} {p : Poll} {m : Move}
    {es es' : List Effect} {slot : Slot} (h : t.Turned b p m es t') (hs : t.Sound slot)
    (hknown : p.known = Snapshot.sections slot.snapshot) (hpart : es' <+: es) (wall : Int) :
    slot.CoveredBy (es'.foldl (Slot.take wall) slot) := by
  rcases h.slot_cases hpart wall slot with hsame | hticked | ⟨s, es₀, hlearned, hcommit⟩
  · rw [hsame]
    exact .refl slot
  · rw [hticked]
    exact ⟨fun h => h, .refl _⟩
  · rw [hcommit]
    exact hs.covers_commit (p := p.see b.script es₀) hknown hlearned wall

/-- A turn of the task of a view loses nothing of what is in its slot, however far its
effects are performed. -/
theorem Board.Sound.covers {b : Board} (hb : b.Sound) {id : ViewId} {t : ViewTask}
    (ht : b.task? id = some t) {m : Move} {es : List Effect}
    (hpart : es <+: (b.turn t m).2.effects) {slot : Slot}
    (hslot : b.store.get? id = some slot) :
    slot.CoveredBy (es.foldl (Slot.take b.wall) slot) := by
  obtain ⟨slot₀, hslot₀, hs⟩ := hb id t ht
  rw [hslot] at hslot₀
  cases hslot₀
  obtain ⟨p, hp, hknown⟩ := hs.exists_poll
  exact (b.turn_cases t m hp).covers hs hknown hpart b.wall

/-- No step loses what is in a slot. -/
theorem Step.covers {b b' : Board} {x : Happening} {id : ViewId} {slot slot' : Slot}
    (h : Step b x b') (htidy : b.Tidy) (hsound : b.Sound) (hslot : b.store.get? id = some slot)
    (hslot' : b'.store.get? id = some slot') : slot.CoveredBy slot' := by
  cases h.fate htidy id with
  | other hx htask hsame =>
    rw [hsame, hslot] at hslot'
    cases hslot'
    exact .refl slot
  | mounted hnext => exact absurd hnext (Nat.ne_of_lt (htidy.lt_of_get? hslot))
  | dropped hheld htask hsame =>
    rw [hsame, hslot] at hslot'
    cases hslot'
    exact .refl slot
  | left ht hcancelled htask hgone =>
    rw [hgone] at hslot'
    cases hslot'
  | moved ht hcancelled hallows htask htaken =>
    rw [htaken, hslot] at hslot'
    cases hslot'
    exact hsound.covers ht (List.prefix_refl _) hslot
  | fell ht hcancelled hpart htask htaken =>
    rw [htaken, hslot] at hslot'
    cases hslot'
    exact hsound.covers ht hpart hslot

/-- No run loses what is in a slot. -/
theorem Run.covers {b b' : Board} {h : List Happening} {id : ViewId} {slot slot' : Slot}
    (hrun : Run b h b') (htidy : b.Tidy) (hsound : b.Sound)
    (hslot : b.store.get? id = some slot) (hslot' : b'.store.get? id = some slot') :
    slot.CoveredBy slot' := by
  induction hrun generalizing slot' with
  | refl =>
    rw [hslot] at hslot'
    cases hslot'
    exact .refl slot
  | @step b₁ b₂ h₁ x hrun₁ hstep ih =>
    cases hslot₁ : b₁.store.get? id with
    | none =>
      have hlt := Nat.lt_of_lt_of_le (htidy.lt_of_get? hslot) hrun₁.nextId_le
      rw [hstep.get?_eq_none (hrun₁.tidy htidy) hlt hslot₁] at hslot'
      cases hslot'
    | some slot₁ =>
      exact (ih hslot₁).trans
        (hstep.covers (hrun₁.tidy htidy) (hrun₁.sound htidy hsound) hslot₁ hslot')

/-- Errors keep what is known.  In each cycle of a view the slot only grows older until the poll
closes; a poll that brings nothing leaves the slot alone, and one of the home view that brings
something puts each answer in the place of its section, beside the other sections as they stand
in the slot at that instant.  In each run a slot keeps its snapshot, and its sections if it is
of the home view, for as long as it is there. -/
theorem Run.errors_keep_state {s : Settings} {intervals : Intervals} {wall : Int}
    {firstToast : Uuid} {h : List Happening} {b : Board}
    (hrun : Run (Board.start s intervals wall firstToast) h b) (id : ViewId) :
    (∀ cycle b₂ b₃, Cycle id b cycle b₂ b₃ → ∃ slot slot₂, b.store.get? id = some slot ∧
      b₂.store.get? id = some slot₂ ∧ slot₂ = slot.aged (Happening.ticks id cycle) ∧
      ((b.poll id cycle).Fails slot.kind → b₃.store.get? id = some slot₂) ∧
      (slot.kind = .home → ¬ (b.poll id cycle).Fails .home → ∃ new,
        b₃.store.get? id = some (slot₂.commit b₂.wall (.home new)) ∧
          (Snapshot.sections slot₂.snapshot).Renews (b.poll id cycle) new)) ∧
    (∀ h' b' slot slot', Run b h' b' → b.store.get? id = some slot →
      b'.store.get? id = some slot' →
      slot.CoveredBy slot') := by
  have htidy := hrun.tidy (Board.tidy_start s intervals wall firstToast)
  have hsound := hrun.sound (Board.tidy_start ..)
    (Board.sound_start s intervals wall firstToast)
  refine ⟨?_, fun h' b' slot slot' hrun' => hrun'.covers htidy hsound⟩
  intro cycle b₂ b₃ hcycle
  obtain ⟨slot, learned, hslot, hslot₂, hlearned, hslot₃⟩ := hcycle.slot htidy hsound
  refine ⟨slot, _, hslot, hslot₂, rfl, ?_, ?_⟩
  · intro hfails
    rw [(Poll.eq_none_iff_fails hlearned).mpr hfails] at hslot₃
    exact hslot₃
  · intro hkind hsome
    rw [hkind] at hlearned
    cases learned with
    | none => exact absurd ((Poll.eq_none_iff_fails hlearned).mp rfl) hsome
    | some snapshot =>
      obtain ⟨new, rfl, hrenews⟩ := Poll.renews_of_learned? hlearned
      rw [Board.poll_known hslot, ← (slot.aged_frame (Happening.ticks id cycle)).2.1] at hrenews
      exact ⟨new, hslot₃, hrenews⟩

/-- A home view whose heaters answer once and fail afterwards: the second cycle
keeps their section. -/
theorem Run.errors_keep_heaters :
    ∃ (h cycle : List Happening) (b b₂ b₃ : Board) (new : HomeSnapshot),
    Run (Board.start {} ⟨200, 1000, by decide, by decide⟩ 0 ⟨0⟩) h b ∧ Cycle 1 b cycle b₂ b₃ ∧
      (b.poll 1 cycle).Failed .heaters ∧ ¬ (b.poll 1 cycle).Fails .home ∧
      (b₃.store.get? 1).bind (·.snapshot) = some (.home new) ∧ new.heaters = some default := by
  let script : Script := { heaters := some default, alarm := some default, ble := some default }
  let b₀ := Board.start {} ⟨200, 1000, by decide, by decide⟩ 0 ⟨0⟩
  let b₁ := ((b₀.attend (.script script)).hold .home).2
  let b₂ := b₁.move 1 .poll
  let b₃ := b₂.move 1 .answers
  let b₄ := { b₃ with now := 200 }.attend (.script { script with heaters := none })
  let b₅ := b₄.move 1 .poll
  have hopen : Step b₁ (b₁.moving 1 .poll) b₂ := .of_canMove (by decide +kernel)
  have hclose : Step b₂ (b₂.moving 1 .answers) b₃ := .of_canMove (by decide +kernel)
  have hsleeps : b₃.SleepsUntil 200 := by decide +kernel
  have hrun : Run b₀ _ b₄ :=
    .cons (.attend b₀ _) <| .cons (.hold _ .home) <| .cons hopen <| .cons hclose <|
      .cons (.pass (by decide +kernel) hsleeps) <| .single (.attend _ _)
  let cycle : List Happening := [b₄.moving 1 .poll, b₅.moving 1 .answers]
  have hcycle : Cycle 1 b₄ cycle b₅ (b₅.move 1 .answers) :=
    .of_canMove (by decide +kernel) (.refl b₅) rfl (by decide +kernel) (by decide +kernel)
  have hheaters : (b₄.poll 1 cycle).answers .heaters =
    some (.error (Script.missing .heaters)) := by decide +kernel
  have halarm : (b₄.poll 1 cycle).answers .alarm = some (.ok default) := by decide +kernel
  have hsome : ¬ (b₄.poll 1 cycle).Fails .home := by
    rintro ⟨_, ⟨e, he⟩, _⟩
    rw [halarm] at he
    cases he
  have hkind : (b₄.store.get? 1).map (·.kind) = some .home := by decide +kernel
  have hknown : (b₄.store.get? 1).map (fun slot => (Snapshot.sections slot.snapshot).heaters) =
      some (some default) := by decide +kernel
  obtain ⟨slot, slot₂, hslot, _, haged, _, hrenewed⟩ :=
    (Run.errors_keep_state hrun 1).1 cycle b₅ _ hcycle
  rw [hslot] at hkind hknown
  obtain ⟨new, hslot₃, hrenews⟩ := hrenewed (Option.some.inj hkind) hsome
  refine ⟨_, cycle, b₄, b₅, b₅.move 1 .answers, new, hrun, hcycle, ⟨_, hheaters⟩, hsome, ?_, ?_⟩
  · rw [hslot₃]
    rfl
  · have hnew := hrenews.heaters
    rw [Poll.fresh?, hheaters, haged, (slot.aged_frame _).2.1] at hnew
    exact hnew.trans (Option.some.inj hknown)

end HouseBoard
