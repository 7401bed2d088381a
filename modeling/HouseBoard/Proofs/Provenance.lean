/-
HouseBoard.Proofs.Provenance — from which answer a device comes that a view shows, and
how old it looks.

The age that an answer reports is that of the instant at which it came, but a view counts its
ticks from the instant at which the poll is committed, when all of its calls have been answered.
Section 1 names the places at which a view shows a device, with the call that brings it.
Section 2 follows the answers to one call through the polls of a view: which one the poll on its
way has heard, and which one the view shows.  Section 3 proves that what a view shows at a place
is what that answer said, and Section 4 relates its age to the time since: the ticks between
answer and commit are missing.
-/
import HouseBoard.Proofs.Absence
import HouseBoard.Proofs.Freshness
import HouseBoard.Proofs.Seconds

namespace HouseBoard

/-! ## Section 1 — places -/

/-- The controller that a report comes from. -/
def LiveState.owner : LiveState → Owner
  | .garage _ => .garage
  | .heaters _ => .heaters
  | .alarm _ => .alarm

/-- The controller that a section is about. -/
def ControllerModel.owner : ControllerModel → Owner
  | .garage _ => .garage
  | .heaters _ => .heaters
  | .alarm _ => .alarm

/-- A place at which a view shows a device. -/
inductive DevicePlace where
  /-- A card of the home view. -/
  | home (c : HomeCard)
  /-- The device of the view of a device. -/
  | device (did : DeviceRef)
  /-- The device in the section of a controller, in the view of a device that it owns. -/
  | owner (o : Owner)

namespace DevicePlace

/-- The call that brings the device of a place. -/
def call : DevicePlace → Call
  | .home c => c.call
  | .device did => .device did
  | .owner o => o.call

/-- The device that an answer brings. -/
def read : (p : DevicePlace) → p.call.Reply → DeviceState
  | .home .heaters, state => state.device
  | .home .alarm, state => state.device
  | .device _, state => state
  | .owner o, state => (o.live state).device

/-- The views that have a place. -/
def In : DevicePlace → ViewKind → Prop
  | .home _, .home => True
  | .device did, .device did' => did = did'
  | .owner _, .device _ => True
  | _, _ => False

/-- The device that a snapshot has at a place. -/
def device? (p : DevicePlace) (s : Snapshot) : Option DeviceState :=
  match p, s with
  | .home c, .home sections => c.device? sections
  | .device _, .device s => some s.state
  | .owner o, .device s => (s.live.filter fun l => l.owner = o).map (·.device)
  | _, _ => none

/-- The card that a view has at a place. -/
def card? (p : DevicePlace) (m : ViewModel) : Option DeviceCard :=
  match p, m with
  | .home c, .home m => c.shown? m
  | .device _, .device m => some m.device
  | .owner o, .device m => (m.controller.filter fun c => c.owner = o).map (·.card)
  | _, _ => none

/-- A card at a place shows the device that is there. -/
theorem card?_render (p : DevicePlace) (s : Snapshot) (ctx : ViewContext) :
    p.card? (s.render ctx) = (p.device? s).map fun d => .ofDevice d ctx := by
  cases p with
  | home c =>
    cases s with
    | home s => exact c.shown?_render s ctx
    | _ => rfl
  | device did =>
    cases s with
    | device s => rfl
    | _ => rfl
  | owner o =>
    cases s with
    | device s =>
      obtain ⟨state, live⟩ := s
      cases live with
      | none => rfl
      | some l =>
        have howner : (l.render ctx).owner = l.owner := by cases l <;> rfl
        have hcard : (l.render ctx).card = .ofDevice l.device ctx := by cases l <;> rfl
        by_cases h : l.owner = o
        · simp [card?, device?, Snapshot.render, DeviceSnapshot.render, Option.filter_some,
            howner, hcard, h]
        · simp [card?, device?, Snapshot.render, DeviceSnapshot.render,
            Option.filter_some, howner, h]
    | _ => rfl

/-- What was shown of a home view stands among the sections that are known. -/
theorem device?_of_sections {c : HomeCard} {s : Option Snapshot} {d : DeviceState}
    (h : c.device? (Snapshot.sections s) = some d) :
    s.bind (DevicePlace.home c).device? = some d := by
  have hnone : c.device? {} = none := by cases c <;> rfl
  cases s with
  | none => exact absurd (hnone.symm.trans h) nofun
  | some s =>
    cases s with
    | home s => exact h
    | _ => exact absurd (hnone.symm.trans h) nofun

/-- The device of a card comes from the answer to its call, or, if that is a failure,
from what was known. -/
theorem home_device?_of_renews {q : Poll} {c : HomeCard} {new : HomeSnapshot} {d : DeviceState}
    (hrenews : q.known.Renews q new) (hd : c.device? new = some d) :
    (∃ reply, q.fresh? c.call = some reply ∧ (DevicePlace.home c).read reply = d) ∨
      (q.fresh? c.call = none ∧ c.device? q.known = some d) := by
  cases c with
  | heaters =>
    rw [HomeCard.device?, hrenews.heaters, Option.map_or, Option.or_eq_some_iff] at hd
    exact hd.imp Option.map_eq_some_iff.mp (And.imp_left Option.map_eq_none_iff.mp)
  | alarm =>
    rw [HomeCard.device?, hrenews.alarm, Option.map_or, Option.or_eq_some_iff] at hd
    exact hd.imp Option.map_eq_some_iff.mp (And.imp_left Option.map_eq_none_iff.mp)

/-- The device of the view of a device, and that of its controller, come from the
answers to their calls. -/
theorem device?_of_learned_device {q : Poll} {p : DevicePlace} {did : DeviceRef} {s : Snapshot}
    {d : DeviceState} (hin : p.In (.device did)) (h : q.learned? (.device did) = some (some s))
    (hd : p.device? s = some d) : ∃ reply, q.fresh? p.call = some reply ∧ p.read reply = d := by
  obtain ⟨state, hstate, hcases⟩ := Poll.exists_of_learned?_device h
  cases p with
  | home c => cases hin
  | device did' =>
    obtain rfl : did' = did := hin
    have hsame : (DevicePlace.device did').device? s = some state := by
      obtain ⟨_, rfl⟩ | ⟨_, _, _, _, rfl⟩ := hcases
      · rfl
      · rfl
    refine ⟨state, by simp [Poll.fresh?, call, hstate, Except.toOption], ?_⟩
    exact Option.some.inj (hsame.symm.trans hd)
  | owner o =>
    obtain ⟨_, rfl⟩ | ⟨owner, reply, _, hreply, rfl⟩ := hcases
    · cases hd
    · have hsame : (owner.live reply).owner = owner := by cases owner <;> rfl
      by_cases heq : owner = o
      · subst heq
        simp only [device?, Option.filter_some, hsame, decide_true, if_true, Option.map_some,
          Option.some.injEq] at hd
        exact ⟨reply, by simp [Poll.fresh?, call, hreply, Except.toOption], hd⟩
      · simp [device?, Option.filter_some, hsame, heq] at hd

/-- A device that a poll brings to a place comes from the answer to the call of the place, or,
if that is a failure, from what was there. -/
theorem device?_of_learned {q : Poll} {p : DevicePlace} {kind : ViewKind}
    {old : Option Snapshot} {s : Snapshot} {d : DeviceState} (hin : p.In kind)
    (hknown : q.known = Snapshot.sections old) (h : q.learned? kind = some (some s))
    (hd : p.device? s = some d) :
    (∃ reply, q.fresh? p.call = some reply ∧ p.read reply = d) ∨
      (q.fresh? p.call = none ∧ old.bind p.device? = some d) := by
  cases kind with
  | home =>
    obtain ⟨new, rfl, hrenews⟩ := Poll.renews_of_learned? h
    cases p with
    | home c =>
      refine (home_device?_of_renews hrenews hd).imp_right fun ⟨hnone, hold⟩ => ⟨hnone, ?_⟩
      rw [hknown] at hold
      exact device?_of_sections hold
    | device did => cases hin
    | owner o => cases hin
  | device did => exact .inl (device?_of_learned_device hin h hd)
  | _ => cases p <;> cases hin

end DevicePlace

/-! ## Section 2 — answers to one call -/

/-- An outcome that brings an answer is a success. -/
theorem outcome_eq_ok {c : Call} {o : Outcome c} {reply : c.Reply}
    (h : o.toOption = some reply) : o = .ok reply := by
  cases o with
  | error e => cases h
  | ok reply' => exact congrArg _ (Option.some.inj h)

/-- The answers of a view to one call that matter: that to the poll on its way, and that
which the view shows. -/
structure Hearing where
  /-- When the call of the poll on its way was answered. -/
  heard : Option Moment := none
  /-- When the answer came that was committed last. -/
  kept : Option Moment := none

namespace Hearing

/-- What a move adds to the answers to a call: a poll that starts has heard nothing, an answer
that comes is heard, and a commit keeps the one that was heard, unless it is a failure. -/
def hear (k : Hearing) (c : Call) (m : Move) (w : Moment) (es : List Effect) : Hearing :=
  let heard := (if m = .poll then none else k.heard).or
    (if .complete c ∈ es then some w else none)
  { heard
    kept := if es.filterMap Effect.learned? = [] then k.kept
      else (heard.filter fun w => (w.script.outcome c).toOption.isSome).or k.kept }

/-- What a happening adds to the answers of a view to a call. -/
def note (id : ViewId) (c : Call) (k : Hearing) : Happening → Hearing
  | .moved j m w es _ => if j = id then k.hear c m w es else k
  | _ => k

variable {k : Hearing} {c : Call} {id : ViewId} {m : Move} {w : Moment} {es : List Effect}

theorem note_of_other (k : Hearing) (c : Call) {x : Happening} (hx : x.isOf id = false) :
    k.note id c x = k := by
  simp only [Happening.isOf, beq_eq_false_iff_ne, ne_eq] at hx
  cases x with
  | moved j m w es ended => exact if_neg fun h => hx (congrArg some h)
  | _ => rfl

@[simp] theorem note_moved (k : Hearing) (c : Call) (id : ViewId) (m : Move) (w : Moment)
    (es : List Effect) (ended : Bool) : k.note id c (.moved id m w es ended) =
      k.hear c m w es := if_pos rfl

/-- Without a commit the view shows what it showed. -/
theorem kept_hear_of_isQuiet (hquiet : ∀ e ∈ es, e.isQuiet = true) :
    (k.hear c m w es).kept = k.kept :=
  if_pos (Effect.filterMap_learned?_of_isQuiet hquiet)

/-- Nothing that is told of a move that neither starts a poll nor has effects but ticks. -/
theorem hear_of_idle (k : Hearing) (c : Call) (hm : m ≠ .poll) (w : Moment)
    (hes : es = [] ∨ es = [.tick]) : k.hear c m w es = k := by
  rcases hes with rfl | rfl
  · simp [hear, hm]
  · simp [hear, hm, Effect.learned?]

/-- What was heard is what the poll on its way has seen answered. -/
theorem map_heard_hear {q : Poll} (hm : m ≠ .poll)
    (h : q.answers c = k.heard.map fun w => w.script.outcome c) :
    (q.see w.script es).answers c = (k.hear c m w es).heard.map fun w =>
      w.script.outcome c := by
  rw [Poll.see_answers, h, Script.answer?]
  simp only [hear, if_neg hm]
  cases k.heard with
  | some w' => rfl
  | none => by_cases hes : Effect.complete c ∈ es <;> simp [hes]

/-- So it is for a poll that starts. -/
theorem map_heard_hear_poll (k : Hearing) (c : Call) (known : HomeSnapshot) (w : Moment)
    (es : List Effect) :
    ((Poll.unseen known).see w.script es).answers c =
      (k.hear c .poll w es).heard.map fun w => w.script.outcome c := by
  rw [Poll.see_answers, Script.answer?]
  by_cases hes : Effect.complete c ∈ es <;> simp [hear, Poll.unseen, hes]

end Hearing

namespace Happening

variable {id : ViewId} {c : Call}

/-- The answers of a view to a call in the course of a run. -/
def hearing (id : ViewId) (c : Call) (h : List Happening) : Hearing :=
  h.foldl (Hearing.note id c) {}

/-- When the answer to a call came that a view shows after a run. -/
def answered? (id : ViewId) (c : Call) (h : List Happening) : Option Moment :=
  (hearing id c h).kept

theorem hearing_concat (h : List Happening) (x : Happening) :
    hearing id c (h ++ [x]) = (hearing id c h).note id c x := List.foldl_concat ..

theorem hearing_of_others {h : List Happening} (hh : ∀ x ∈ h, x.isOf id = false) :
    hearing id c h = {} := by
  induction h using List.reverseRecOn with
  | nil => rfl
  | append_singleton h x ih =>
    rw [hearing_concat, Hearing.note_of_other _ _ (hh x (by simp))]
    exact ih fun y hy => hh y (List.mem_append_left _ hy)

/-- The last commit after a move is the move itself if it commits. -/
theorem base_append_moved (mounted : Nat) (h : List Happening) (m : Move) (w : Moment)
    (es : List Effect) (ended : Bool) : base id mounted (h ++ [.moved id m w es ended]) =
      if es.filterMap Effect.learned? = [] then base id mounted h else w.now := by
  rw [base, commits_append, commits_singleton, learned_moved]
  cases hes : es.filterMap Effect.learned? using List.reverseRecOn with
  | nil => simp [base]
  | append_singleton ss s => simp [← List.append_assoc]

end Happening

/-! ## Section 3 — what a view shows -/

/-- The answers to the call of a place tell of a task and its slot: the fetch on its way has the
answer that was heard, and the device at the place is the one that the kept answer brought. -/
structure Hearing.TellsOf (k : Hearing) (p : DevicePlace) (t : ViewTask)
    (slot : Slot) : Prop where
  poll : ∃ q : Poll, (∀ f, t.fetch = some f → f.Agrees q t.kind) ∧
    q.known = Snapshot.sections slot.snapshot ∧
    q.answers p.call = k.heard.map fun w => w.script.outcome p.call
  shown : ∀ d, slot.snapshot.bind p.device? = some d →
    ∃ w reply, k.kept = some w ∧ w.script.outcome p.call = .ok reply ∧ p.read reply = d

namespace Hearing.TellsOf

variable {k k' : Hearing} {p : DevicePlace} {t t' : ViewTask} {slot slot' : Slot} {b : Board}

/-- A task that has no fetch on its way has heard anything. -/
theorem of_fetch_none (hnone : t.fetch = none)
    (hshown : ∀ d, slot.snapshot.bind p.device? = some d →
      ∃ w reply, k.kept = some w ∧ w.script.outcome p.call = .ok reply ∧ p.read reply = d) :
      k.TellsOf p t slot where
  poll :=
    ⟨⟨Snapshot.sections slot.snapshot, fun c => k.heard.map fun w => w.script.outcome c, []⟩,
    fun f hf => by simp [hnone] at hf, rfl, rfl⟩
  shown := hshown

/-- What was heard and kept still tells of a task whose fetch goes on with the same poll. -/
theorem congr (h : k.TellsOf p t slot) (hkind : t'.kind = t.kind) (hfetch : t'.fetch = t.fetch)
    (hsnapshot : slot'.snapshot = slot.snapshot) : k.TellsOf p t' slot' where
  poll := by
    rw [hkind, hfetch, hsnapshot]
    exact h.poll
  shown := by
    rw [hsnapshot]
    exact h.shown

/-- A commit shows at a place what was heard, and what was shown if a failure was heard. -/
theorem of_commit (h : k.TellsOf p t slot) (hin : p.In t.kind) {q : Poll} {w : Moment}
    {es : List Effect} {s : Snapshot} (hknown : q.known = Snapshot.sections slot.snapshot)
    (hlearned : q.learned? t.kind = some (some s))
    (hheard : q.answers p.call = (k.hear p.call .answers w es).heard.map fun w =>
      w.script.outcome p.call)
    (hcommits : es.filterMap Effect.learned? ≠ []) (hnone : t'.fetch = none) (wall : Int) :
    (k.hear p.call .answers w es).TellsOf p t' (slot.commit wall s) := by
  refine .of_fetch_none hnone fun d hd => ?_
  have hkept : (k.hear p.call .answers w es).kept =
      ((k.hear p.call .answers w es).heard.filter fun w =>
        (w.script.outcome p.call).toOption.isSome).or k.kept :=
    if_neg hcommits
  rw [hkept]
  generalize (k.hear p.call .answers w es).heard = heard at hheard ⊢
  rcases DevicePlace.device?_of_learned hin hknown hlearned
    hd with ⟨reply, hfresh, hread⟩ | ⟨hfresh, hold⟩
  · rw [Poll.fresh?, hheard] at hfresh
    obtain ⟨o, ho, hok⟩ := Option.bind_eq_some_iff.mp hfresh
    obtain ⟨w', rfl, rfl⟩ := Option.map_eq_some_iff.mp ho
    exact ⟨w', reply, by simp [hok], outcome_eq_ok hok, hread⟩
  · obtain ⟨w', reply, hbefore, hout, hread⟩ := h.shown d hold
    refine ⟨w', reply, ?_, hout, hread⟩
    rw [← hbefore]
    rw [Poll.fresh?, hheard] at hfresh
    cases heard with
    | none => rfl
    | some w'' =>
      have hfailed : (w''.script.outcome p.call).toOption = none := hfresh
      simp [Option.filter_some, hfailed]

/-- A move of a task goes on with what was heard and kept. -/
theorem turn (h : k.TellsOf p t slot) (hin : p.In t.kind)
    (hslot : b.store.get? t.id = some slot) (m : Move) (wall : Int) :
    (k.hear p.call m b.moment (b.turn t m).2.effects).TellsOf p (b.turn t m).1
      ((b.turn t m).2.effects.foldl (Slot.take wall) slot) := by
  obtain ⟨q, hagrees, hknown, hheard⟩ := h.poll
  have hturn := b.turn_cases t m hagrees
  have hkind := b.turn_kind t m
  generalize (b.turn t m).2.effects = es at hturn ⊢
  generalize (b.turn t m).1 = t' at hturn hkind ⊢
  -- what a quiet move leaves is shown as before
  have hshown (hquiet : ∀ e ∈ es, e.isQuiet = true) (d : DeviceState)
      (hd : (es.foldl (Slot.take wall) slot).snapshot.bind p.device? = some d) : ∃ w reply,
        (k.hear p.call m b.moment es).kept = some w ∧ w.script.outcome p.call = .ok reply ∧
        p.read reply = d := by
    rw [Slot.foldl_take_of_isQuiet hquiet] at hd
    rw [Hearing.kept_hear_of_isQuiet hquiet]
    exact h.shown d hd
  cases hturn with
  | idle hm hfetch =>
    rw [k.hear_of_idle p.call hm b.moment (.inl rfl)]
    exact h.congr hkind hfetch rfl
  | ticked hfetch =>
    rw [k.hear_of_idle p.call (by decide) b.moment (.inr rfl)]
    exact h.congr hkind hfetch rfl
  | @opened _ _ f hquiet hfetch hagrees' =>
    have hheard' := k.map_heard_hear_poll p.call
      (Snapshot.sections (b.scene t.id).known) b.moment es
    refine ⟨⟨_, fun f' hf' => ?_, ?_, hheard'⟩, hshown hquiet⟩
    · rw [hfetch] at hf'
      cases hf'
      rw [hkind]
      exact hagrees'
    · rw [Slot.foldl_take_of_isQuiet hquiet, Poll.see_known]
      simp [Poll.unseen, Board.scene, hslot]
  | @underway _ _ f hquiet hbefore hfetch hagrees' hsleeps =>
    refine ⟨⟨_, fun f' hf' => ?_, ?_, Hearing.map_heard_hear (by decide) hheard⟩, hshown hquiet⟩
    · rw [hfetch] at hf'
      cases hf'
      rw [hkind]
      exact hagrees'
    · rw [Slot.foldl_take_of_isQuiet hquiet, Poll.see_known, hknown]
  | @ended es₀ _ learned hquiet hbefore hfetch hlearned htaken =>
    cases learned with
    | none =>
      rw [Option.map_none, Option.toList_none, List.append_nil] at hshown ⊢
      exact .of_fetch_none hfetch (hshown hquiet)
    | some s =>
      rw [← Poll.see_commit q b.script es₀ (some s)] at hlearned
      have hcommits : (es₀ ++ ((some s).map Effect.commit).toList).filterMap
          Effect.learned? ≠ [] := by
        simp [Effect.learned?]
      rw [List.foldl_append, Slot.foldl_take_of_isQuiet hquiet]
      exact h.of_commit hin (hknown ▸ Poll.see_known q b.script _) hlearned
        (Hearing.map_heard_hear (w := b.moment) (by decide) hheard) hcommits hfetch wall

end Hearing.TellsOf

/-- The answers of a view that was mounted at an instant came since then, and the one that it
shows not after its last commit. -/
structure Hearing.InTime (k : Hearing) (mounted last now : Nat) : Prop where
  mounted_le : mounted ≤ last
  last_le : last ≤ now
  heard : ∀ w, k.heard = some w → mounted ≤ w.now ∧ w.now ≤ now
  kept : ∀ w, k.kept = some w → mounted ≤ w.now ∧ w.now ≤ last

namespace Hearing.InTime

variable {k : Hearing} {mounted last now : Nat}

theorem of_mounted (mounted : Nat) : Hearing.InTime {} mounted mounted mounted where
  mounted_le := Nat.le_refl mounted
  last_le := Nat.le_refl mounted
  heard := by simp
  kept := by simp

theorem pass (h : k.InTime mounted last now) {n : Nat} (hn : now ≤ n) :
    k.InTime mounted last n where
  mounted_le := h.mounted_le
  last_le := Nat.le_trans h.last_le hn
  heard w hw := ⟨(h.heard w hw).1, Nat.le_trans (h.heard w hw).2 hn⟩
  kept := h.kept

theorem hear {w : Moment} (h : k.InTime mounted last w.now) (c : Call) (m : Move)
    (es : List Effect) :
    (k.hear c m w es).InTime mounted (if es.filterMap Effect.learned? = [] then last else w.now)
      w.now := by
  have hmounted := Nat.le_trans h.mounted_le h.last_le
  have hheard (w' : Moment) (hw' : (k.hear c m w es).heard = some w') :
      mounted ≤ w'.now ∧ w'.now ≤ w.now := by
    simp only [Hearing.hear, Option.or_eq_some_iff] at hw'
    rcases hw' with hw' | ⟨_, hw'⟩
    · split at hw'
      · cases hw'
      · exact h.heard w' hw'
    · split at hw'
      · cases hw'
        exact ⟨hmounted, Nat.le_refl _⟩
      · cases hw'
  by_cases hes : es.filterMap Effect.learned? = []
  · have hkept : (k.hear c m w es).kept = k.kept := if_pos hes
    rw [if_pos hes]
    exact ⟨h.mounted_le, h.last_le, hheard, by rw [hkept]; exact h.kept⟩
  · rw [if_neg hes]
    refine ⟨hmounted, Nat.le_refl _, hheard, fun w' hw' => ?_⟩
    simp only [Hearing.hear, if_neg hes, Option.or_eq_some_iff] at hw'
    rcases hw' with hw' | ⟨_, hw'⟩
    · exact hheard w' (Option.filter_eq_some_iff.mp hw').1
    · exact ⟨(h.kept w' hw').1, Nat.le_trans (h.kept w' hw').2 h.last_le⟩

/-- Every step keeps the answers of a view in time. -/
theorem step {b b' : Board} {x : Happening} {id : ViewId} {c : Call} {h : List Happening}
    (hk : (Happening.hearing id c h).InTime mounted (Happening.base id mounted h) b.now)
    (hstep : Step b x b') :
    (Happening.hearing id c (h ++ [x])).InTime mounted
      (Happening.base id mounted (h ++ [x])) b'.now := by
  have hkept (hnote : (Happening.hearing id c h).note id c x = Happening.hearing id c h)
      (hlearned : x.learned id = []) :
      (Happening.hearing id c (h ++ [x])).InTime mounted
        (Happening.base id mounted (h ++ [x])) b'.now := by
    rw [Happening.hearing_concat, hnote, Happening.base_append_of_nil mounted h hlearned]
    exact hk.pass hstep.now_le
  cases x with
  | moved j m w es ended =>
    by_cases hj : j = id
    · subst hj
      obtain ⟨t, _, _, _, rfl, _⟩ := hstep.of_moved
      rw [Happening.hearing_concat, Hearing.note_moved, Happening.base_append_moved,
        hstep.now_eq (by simp)]
      exact hk.hear (w := b.moment) c m es
    · have hx : (Happening.moved j m w es ended).isOf id = false := by
        simp [Happening.isOf, Happening.id?, hj]
      exact hkept (Hearing.note_of_other _ _ hx) (Happening.learned_of_other hx)
  | _ => exact hkept rfl rfl

end Hearing.InTime

/-- A view of a kind shows at a place what its answers in the course of a run tell. -/
structure Board.Hears (b : Board) (id : ViewId) (kind : ViewKind) (p : DevicePlace)
    (mounted : Nat) (h : List Happening) : Prop where
  inTime : (Happening.hearing id p.call h).InTime mounted (Happening.base id mounted h) b.now
  tellsOf : ∀ t, b.task? id = some t → t.kind = kind ∧ ∃ slot, b.store.get? id = some slot ∧
    (Happening.hearing id p.call h).TellsOf p t slot

/-- Every step goes on with the answers of a view. -/
theorem Step.hears {b b' : Board} {x : Happening} {id : ViewId} {kind : ViewKind}
    {p : DevicePlace} {mounted : Nat} {h : List Happening} (hstep : Step b x b')
    (htidy : b.Tidy) (hid : id < b.nextId) (hin : p.In kind)
    (hb : b.Hears id kind p mounted h) : b'.Hears id kind p mounted (h ++ [x]) := by
  refine ⟨hb.inTime.step hstep, fun t' ht' => ?_⟩
  rw [Happening.hearing_concat]
  cases hstep.origin htidy ht' with
  | other hx ht hslot =>
    rw [Hearing.note_of_other _ _ hx, hslot]
    exact hb.tellsOf t' ht
  | mounted hnext => exact absurd hnext (Nat.ne_of_lt hid)
  | @dropped t ht hslot =>
    obtain ⟨hkind, slot, hget, htells⟩ := hb.tellsOf t ht
    exact ⟨hkind, slot, hslot.trans hget, htells.congr rfl rfl rfl⟩
  | @moved t m ht hallows hslot =>
    obtain ⟨hkind, slot, hget, htells⟩ := hb.tellsOf t ht
    obtain rfl := Board.task?_id ht
    rw [Hearing.note_moved, hslot, hget]
    exact ⟨(b.turn_kind t m).trans hkind, _, rfl, htells.turn (hkind ▸ hin) hget m b.wall⟩

namespace Run

variable {b b' : Board} {h h' : List Happening} {id : ViewId} {kind : ViewKind}
  {p : DevicePlace} {mounted : Nat}

/-- A run goes on with the answers of a view. -/
theorem hears (hrun : Run b h' b') (htidy : b.Tidy) (hid : id < b.nextId) (hin : p.In kind)
    (hb : b.Hears id kind p mounted h) : b'.Hears id kind p mounted (h ++ h') := by
  induction hrun with
  | refl => rwa [List.append_nil]
  | step hrun₁ hstep ih =>
    rw [← List.append_assoc]
    exact hstep.hears (hrun₁.tidy htidy) (Nat.lt_of_lt_of_le hid hrun₁.nextId_le) hin ih

/-- A view that was mounted in the course of a run shows at each place what it was answered. -/
theorem hears_of_mounted (hrun : Run b h b') (hb : b.Tidy)
    (hmounted : .mounted id kind mounted ∈ h) (hin : p.In kind) :
    b'.Hears id kind p mounted h := by
  obtain ⟨h₁, h₂, b₂, rfl, hothers, hrun₁, hnew, hrun₂⟩ := hrun.exists_mounting hb hmounted
  have hhearing : Happening.hearing id p.call (h₁ ++ [.mounted id kind mounted]) = {} := by
    rw [Happening.hearing_concat, Happening.hearing_of_others hothers]
    rfl
  have hbase : Happening.base id mounted (h₁ ++ [.mounted id kind mounted]) = mounted := by
    rw [Happening.base_append_of_nil mounted h₁ rfl, Happening.base,
      Happening.commits_of_others hothers]
    rfl
  have hfirst : b₂.Hears id kind p mounted (h₁ ++ [.mounted id kind mounted]) := by
    refine ⟨?_, fun t ht => ?_⟩
    · rw [hhearing, hbase, hnew.now_eq]
      exact .of_mounted mounted
    · obtain ⟨stamp, htask⟩ := hnew.task
      rw [htask] at ht
      cases ht
      exact ⟨rfl, _, hnew.slot, .of_fetch_none rfl (by simp)⟩
  have hhears := hrun₂.hears (hrun₁.tidy hb) hnew.lt hin hfirst
  rwa [List.append_assoc, List.singleton_append] at hhears

end Run

/-! ## Section 4 — ages -/

namespace Board

/-- The device that a view has at a place. -/
def deviceAt? (b : Board) (id : ViewId) (p : DevicePlace) : Option DeviceState :=
  (b.store.get? id).bind fun slot => slot.snapshot.bind p.device?

/-- The card at a place as a view shows it. -/
def cardAt? (b : Board) (kind : ViewKind) (id : ViewId) (p : DevicePlace) : Option DeviceCard :=
  (b.render kind id).model.bind p.card?

/-- The liveness behind the card at a place. -/
def livenessAt? (b : Board) (id : ViewId) (p : DevicePlace) : Option Liveness :=
  (b.store.get? id).bind fun slot => (slot.snapshot.bind p.device?).map fun d =>
    (LivenessSample.ofReport d.lastSeenAt d.lastSeenFromNow .caniot b.policy).evaluate
      slot.offset .minimal

/-- A card at a place is shown with a liveness. -/
def ShowsAt (b : Board) (kind : ViewKind) (id : ViewId) (p : DevicePlace)
    (l : Liveness) : Prop :=
  b.livenessAt? id p = some l ∧
    ∃ card, b.cardAt? kind id p = some card ∧ card.liveness.online = l.online ∧
    card.liveness.label = l.label

/-- A device at a place that was heard is shown with the age that was reported and the
count of the slot. -/
theorem showsAt_of_deviceAt? {b : Board} {id : ViewId} {p : DevicePlace} {slot : Slot}
    {d : DeviceState} {seen : Timestamp} {age : Nat} (kind : ViewKind)
    (hslot : b.store.get? id = some slot) (hd : b.deviceAt? id p = some d)
    (hseen : d.lastSeenAt = some seen) (hage : d.lastSeenFromNow = some age) :
    b.ShowsAt kind id p
      { online := decide (addSeconds age slot.offset < b.policy.caniotThreshold)
        label := humanize (addSeconds age slot.offset)
        effectiveAge := some (addSeconds age slot.offset) } := by
  simp only [deviceAt?, hslot, Option.bind_some] at hd
  refine ⟨?_, .ofDevice d (b.context slot.offset), ?_, ?_⟩
  · rw [livenessAt?, hslot, Option.bind_some, hd, Option.map_some]
    simp [LivenessSample.ofReport, LivenessSample.evaluate, hseen, hage,
      LivenessPolicy.threshold, LabelStyle.label]
  · obtain ⟨s, hs, hdevice⟩ := Option.bind_eq_some_iff.mp hd
    simp [cardAt?, render, hslot, hs, DevicePlace.card?_render, hdevice]
  · simp [DeviceCard.ofDevice, LivenessSample.ofReport, LivenessSample.view,
      LivenessSample.evaluate, hseen, hage, LivenessPolicy.threshold, LabelStyle.label, context]

end Board

/-- The ticks between an instant and the last commit are those before the commit that do not
come before the instant. -/
theorem Beats.ncard_missed {period mounted last now offset before gone : Nat} {t : ViewTask}
    (hp : Beats period mounted last now t offset before gone) (hperiod : 0 < period) {n : Nat}
    (hn : mounted ≤ n) :
    {k | 1 ≤ k ∧ n < mounted + k * period ∧ mounted + k * period < last}.ncard =
      before - (n - mounted) / period := by
  have hset : {k | 1 ≤ k ∧ n < mounted + k * period ∧ mounted + k * period < last} =
      (Finset.Ioc ((n - mounted) / period) before : Set Nat) := by
    ext k
    have hafter : n < mounted + k * period ↔ (n - mounted) / period < k := by
      rw [Nat.div_lt_iff_lt_mul hperiod]
      omega
    simp only [Set.mem_ofPred_eq, Finset.coe_Ioc, Set.mem_Ioc]
    constructor
    · rintro ⟨hk, hlate, hearly⟩
      exact ⟨hafter.mp hlate, (hp.before_iff k hk).mpr hearly⟩
    · rintro ⟨hlate, hearly⟩
      have hk : 1 ≤ k := Nat.lt_of_le_of_lt (Nat.zero_le _) hlate
      exact ⟨hk, hafter.mpr hlate, (hp.before_iff k hk).mp hearly⟩
  rw [hset, Set.ncard_coe_finset, Nat.card_Ioc]

/-- The ticks that are counted and those between an instant and the last commit are together as
many as the periods since that instant, or one more. -/
theorem Beats.near_missed {period mounted last now offset before gone : Nat} {t : ViewTask}
    (hp : Beats period mounted last now t offset before gone) (hlt : now < t.tick.due)
    (hperiod : 0 < period) {n : Nat} (hn : mounted ≤ n) (hlast : n ≤ last) :
    (now - n) / period ≤ gone - before + (before - (n - mounted) / period) ∧
      gone - before + (before - (n - mounted) / period) ≤ (now - n) / period + 1 := by
  obtain ⟨hbefore, hafter, hpast⟩ := hp.between
  have hle := hp.before_le
  have hnow := hp.last_le
  rw [hp.due, Nat.succ_mul] at hlt
  rw [Nat.succ_mul] at hafter
  generalize hj : (n - mounted) / period = j
  have hearly : j * period ≤ n - mounted := hj ▸ Nat.div_mul_le_self (n - mounted) period
  have hlate : n - mounted < j * period + period := by
    rw [← Nat.succ_mul, ← Nat.div_lt_iff_lt_mul hperiod, hj]
    exact Nat.lt_succ_self j
  -- the instant comes before the first grid point that is counted, or is that point
  have hfirst : j ≤ before + 1 := by
    refine Nat.le_of_mul_le_mul_right ?_ hperiod
    rw [Nat.succ_mul]
    omega
  have hgone : j ≤ gone := by
    refine Nat.le_of_lt_succ (Nat.lt_of_mul_lt_mul_right (a := period) ?_)
    rw [Nat.succ_mul]
    omega
  have hmul := Nat.mul_le_mul_right period hgone
  have hless : (now - n) / period ≤ gone - j := by
    refine Nat.le_of_lt_succ ((Nat.div_lt_iff_lt_mul hperiod).mpr ?_)
    rw [Nat.succ_mul, Nat.sub_mul]
    omega
  refine ⟨by omega, ?_⟩
  rcases Nat.lt_or_ge before j with hpoint | hbetween
  · obtain rfl : j = before + 1 := Nat.le_antisymm hfirst hpoint
    have hmore : gone - (before + 1) ≤ (now - n) / period := by
      rw [Nat.le_div_iff_mul_le hperiod, Nat.sub_mul]
      rw [Nat.succ_mul] at hearly ⊢
      omega
    omega
  · have hmore : gone - j - 1 ≤ (now - n) / period := by
      rw [Nat.le_div_iff_mul_le hperiod, Nat.sub_mul, Nat.sub_mul]
      omega
    omega

/-- The heaters that own a device take two and a half seconds to answer, and the device
answers at once. -/
theorem Run.slow_heaters :
    ∃ (h : List Happening) (b : Board) (t : ViewTask) (d : DeviceState) (seen : Timestamp)
    (w : Moment),
    Run (Board.start { liveness := ⟨7, 300⟩ } ⟨5000, 1000, by decide, by decide⟩ 0 ⟨0⟩) h b ∧
      .mounted 1 (.device ⟨1⟩) 0 ∈ h ∧ b.task? 1 = some t ∧ b.Quiet ∧
      b.deviceAt? 1 (.device ⟨1⟩) = some d ∧
      d.lastSeenAt = some seen ∧ d.lastSeenFromNow = some 5 ∧
      Happening.answered? 1 (.device ⟨1⟩) h = some w ∧
      w.script.outcome (.device ⟨1⟩) = .ok d ∧ w.now = 0 ∧
      b.now = 2500 ∧ b.livenessAt? 1 (.device ⟨1⟩) = some ⟨true, "5s", some 5⟩ := by
  let seen : Timestamp := ⟨⟨2024, 6, 1⟩, 12, 0, 0, 0, 0⟩
  let d : DeviceState :=
    { name := "heaters", did := some ⟨1⟩, uiViewName := some "heaters", lastSeenAt := some seen,
      lastSeenFromNow := some 5 }
  let script : Script :=
    { devices := [(⟨1⟩, d)], heaters := some ⟨d, [.comfort], true⟩,
      delays := [(.heaters, 2500)] }
  let b₀ := Board.start { liveness := ⟨7, 300⟩ } ⟨5000, 1000, by decide, by decide⟩ 0 ⟨0⟩
  let b₁ := ((b₀.attend (.script script)).hold (.device ⟨1⟩)).2
  let b₂ := b₁.move 1 .poll
  let b₃ := { b₂.move 1 .answers with now := 1000 }
  let b₄ := { b₃.move 1 .tick with now := 2000 }
  let b₅ := { b₄.move 1 .tick with now := 2500 }
  let b₆ := b₅.move 1 .answers
  let h : List Happening := [.attended (.script script) 0, .mounted 1 (.device ⟨1⟩) 0,
    b₁.moving 1 .poll, b₂.moving 1 .answers, .passed 1000, b₃.moving 1 .tick, .passed 2000,
    b₄.moving 1 .tick, .passed 2500, b₅.moving 1 .answers]
  have hopen : Step b₁ (b₁.moving 1 .poll) b₂ := .of_canMove (by decide +kernel)
  have hask : Step b₂ (b₂.moving 1 .answers) (b₂.move 1 .answers) :=
    .of_canMove (by decide +kernel)
  have hsleeps₁ : (b₂.move 1 .answers).SleepsUntil 1000 := by decide +kernel
  have htick₁ : Step b₃ (b₃.moving 1 .tick) (b₃.move 1 .tick) := .of_canMove (by decide +kernel)
  have hsleeps₂ : (b₃.move 1 .tick).SleepsUntil 2000 := by decide +kernel
  have htick₂ : Step b₄ (b₄.moving 1 .tick) (b₄.move 1 .tick) := .of_canMove (by decide +kernel)
  have hsleeps₃ : (b₄.move 1 .tick).SleepsUntil 2500 := by decide +kernel
  have hclose : Step b₅ (b₅.moving 1 .answers) b₆ := .of_canMove (by decide +kernel)
  have hrun : Run b₀ h b₆ :=
    .cons (.attend b₀ _) <| .cons (.hold _ (.device ⟨1⟩)) <| .cons hopen <| .cons hask <|
      .cons (.pass (by decide +kernel) hsleeps₁) <| .cons htick₁ <|
        .cons (.pass (by decide +kernel) hsleeps₂) <|
      .cons htick₂ <| .cons (.pass (by decide +kernel) hsleeps₃) <| .single hclose
  have hsome : (b₆.task? 1).isSome = true := by decide +kernel
  have hanswer : (Happening.answered? 1 (.device ⟨1⟩) h).map
      (fun w => (w.now, (w.script.outcome (.device ⟨1⟩)).toOption)) = some (0, some d) := by
        decide +kernel
  obtain ⟨t, ht⟩ := Option.isSome_iff_exists.mp hsome
  obtain ⟨w, hw, hout⟩ := Option.map_eq_some_iff.mp hanswer
  obtain ⟨hnow, hok⟩ := Prod.mk.inj hout
  exact ⟨h, b₆, t, d, seen, w, hrun, by simp [h], ht, by decide +kernel, by decide +kernel, rfl,
    rfl, hw, outcome_eq_ok hok, hnow, by decide +kernel, by decide +kernel⟩

/-- A device is shown with the age of the answer that brought it and the ticks since the last
commit, which may lie later than the answer.  With a tick each second, the ticks that went off
between the two are missing: with them the age would have grown by each second that has passed
since the answer, or by one more.  So an age accounts for the seconds since the answer exactly
if as many ticks are counted since the commit, unless their sum does not fit 64 bits. -/
theorem Run.age_short_of_missed_ticks {s : Settings} {intervals : Intervals} {wall : Int}
    {firstToast : Uuid} {h : List Happening} {b : Board} {id : ViewId} {kind : ViewKind}
    {mounted : Nat} {t : ViewTask} {p : DevicePlace} {d : DeviceState} {seen : Timestamp}
    {reported : Nat} (hrun : Run (Board.start s intervals wall firstToast) h b)
    (hmounted : .mounted id kind mounted ∈ h) (ht : b.task? id = some t) (hquiet : b.Quiet)
    (hsecond : intervals.tick = 1000) (hin : p.In kind) (hd : b.deviceAt? id p = some d)
    (hseen : d.lastSeenAt = some seen) (hage : d.lastSeenFromNow = some reported) :
    ∃ w reply age, Happening.answered? id p.call h = some w ∧
      w.script.outcome p.call = .ok reply ∧ p.read reply = d ∧
      w.now ≤ Happening.base id mounted h ∧ Happening.base id mounted h ≤ b.now ∧
      b.ShowsAt kind id p ⟨decide (age < s.liveness.caniotThreshold), humanize age, some age⟩ ∧
      let elapsed := (b.now - w.now) / 1000
      let counted :=
        {k | 1 ≤ k ∧ Happening.base id mounted h ≤ mounted + k * 1000 ∧
          mounted + k * 1000 ≤ b.now}.ncard
      let missed :=
        {k | 1 ≤ k ∧ w.now < mounted + k * 1000 ∧
          mounted + k * 1000 < Happening.base id mounted h}.ncard
      age = min (reported + counted) maxSeconds ∧
        (b.now - Happening.base id mounted h) / 1000 ≤ counted ∧
        elapsed ≤ counted + missed ∧ counted + missed ≤ elapsed + 1 ∧
        (reported + elapsed ≤ age ↔ elapsed ≤ counted ∧ reported + elapsed ≤ maxSeconds) := by
  have hhears :=
    hrun.hears_of_mounted (Board.tidy_start s intervals wall firstToast) hmounted hin
  obtain ⟨_, slot, hslot, htells⟩ := hhears.tellsOf t ht
  have hshown := hd
  simp only [Board.deviceAt?, hslot, Option.bind_some] at hshown
  obtain ⟨w, reply, hw, hout, hread⟩ := htells.shown d hshown
  obtain ⟨hsince, hbefore⟩ := hhears.inTime.kept w hw
  obtain ⟨slot', before, gone, hslot', hp⟩ :=
    hrun.counts_of_mounted (Board.steady_start s intervals wall firstToast) hmounted t ht
  rw [hslot] at hslot'
  cases hslot'
  have hahead : b.now < t.tick.due := (hquiet t (Board.task?_mem ht)).2.2
  have htick : b.intervals.tick = 1000 := by rw [hrun.settings_eq.1]; exact hsecond
  have hpolicy : b.policy = s.liveness := hrun.settings_eq.2
  rw [htick] at hp
  have hshows := Board.showsAt_of_deviceAt? kind hslot hd hseen hage
  rw [hpolicy] at hshows
  refine ⟨w, reply, _, hw, hout, hread, hbefore, hp.last_le, hshows, ?_⟩
  obtain ⟨hless, hmore⟩ := hp.near_missed hahead (by decide) hsince hbefore
  have hnear := (hp.near hahead).2
  rw [hp.ncard_eq hahead, hp.ncard_missed (by decide) hsince, hp.offset_eq]
  simp only [addSeconds, Nat.zero_add]
  omega

/-- The device that waited for its heaters was heard two seconds ago, and two ticks are
missing from its age. -/
theorem Run.age_short_of_slow_heaters :
    ∃ (h : List Happening) (b : Board) (d : DeviceState) (w : Moment) (age : Nat),
    Run (Board.start { liveness := ⟨7, 300⟩ } ⟨5000, 1000, by decide, by decide⟩ 0 ⟨0⟩) h b ∧
      .mounted 1 (.device ⟨1⟩) 0 ∈ h ∧ (b.task? 1).isSome = true ∧ b.Quiet ∧
      (DevicePlace.device ⟨1⟩).In (.device ⟨1⟩) ∧
      b.deviceAt? 1 (.device ⟨1⟩) = some d ∧ d.lastSeenAt.isSome = true ∧
      d.lastSeenFromNow = some 5 ∧
      Happening.answered? 1 (.device ⟨1⟩) h = some w ∧ (b.now - w.now) / 1000 = 2 ∧
      b.ShowsAt (.device ⟨1⟩) 1 (.device ⟨1⟩) ⟨decide (age < 7), humanize age, some age⟩ ∧
      age = 5 ∧
      2 ≤ {k | 1 ≤ k ∧ w.now < 0 + k * 1000 ∧ 0 + k * 1000 < Happening.base 1 0 h}.ncard := by
  obtain ⟨h, b, t, d, seen, w, hrun, hmounted, ht, hquiet, hd, hseen, hage, hw, _, hthen, hnow,
    hl⟩ := slow_heaters
  have hin : (DevicePlace.device ⟨1⟩).In (.device ⟨1⟩) := rfl
  obtain ⟨w', reply, age, hw', _, _, _, _, hshows, hcount, _, hless, _⟩ :=
    Run.age_short_of_missed_ticks hrun hmounted ht hquiet rfl hin hd hseen hage
  obtain rfl : w = w' := Option.some.inj (hw.symm.trans hw')
  have hfive : age = 5 := by
    have heq := Option.some.inj (hshows.1.symm.trans hl)
    exact Option.some.inj (congrArg Liveness.effectiveAge heq)
  have htwo : (b.now - w.now) / 1000 = 2 := by rw [hnow, hthen]
  refine ⟨h, b, d, w, age, hrun, hmounted, by simp [ht], hquiet, hin, hd, by simp [hseen], hage,
    hw, htwo, hshows, hfive, ?_⟩
  have hmax : 5 < maxSeconds := by decide
  omega

/-- The age of a device does not account for the time that its heaters took: two and a half
seconds after the device answered it is shown with the age of the answer, and as online, which
it would not be two seconds older. -/
theorem Run.age_forgets_slow_heaters :
    ∃ (h : List Happening) (b : Board) (d : DeviceState) (w : Moment) (l : Liveness),
    Run (Board.start { liveness := ⟨7, 300⟩ } ⟨5000, 1000, by decide, by decide⟩ 0 ⟨0⟩) h b ∧
      .mounted 1 (.device ⟨1⟩) 0 ∈ h ∧ (b.task? 1).isSome = true ∧ b.Quiet ∧
      b.deviceAt? 1 (.device ⟨1⟩) = some d ∧ d.lastSeenAt.isSome = true ∧
      d.lastSeenFromNow = some 5 ∧
      Happening.answered? 1 (.device ⟨1⟩) h = some w ∧ w.script.outcome (.device ⟨1⟩) = .ok d ∧
      b.ShowsAt (.device ⟨1⟩) 1 (.device ⟨1⟩) l ∧ l.effectiveAge = some 5 ∧ l.online = true ∧
      ¬ 5 + (b.now - w.now) / 1000 ≤ 5 := by
  obtain ⟨h, b, t, d, seen, w, hrun, hmounted, ht, hquiet, hd, hseen, hage, hw, hout, hthen,
    hnow, hl⟩ := slow_heaters
  obtain ⟨slot, hslot⟩ : ∃ slot, b.store.get? 1 = some slot := by
    obtain ⟨slot, hslot, _⟩ := Option.bind_eq_some_iff.mp hd
    exact ⟨slot, hslot⟩
  have hshows := Board.showsAt_of_deviceAt? (.device ⟨1⟩) hslot hd hseen hage
  rw [Option.some.inj (hshows.1.symm.trans hl)] at hshows
  refine ⟨h, b, d, w, _, hrun, hmounted, by simp [ht], hquiet, hd, by simp [hseen], hage, hw,
    hout, hshows, rfl, rfl, ?_⟩
  rw [hnow, hthen]
  decide

end HouseBoard
