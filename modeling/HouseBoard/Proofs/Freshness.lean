/-
HouseBoard.Proofs.Freshness — how old the device cards of the home view look.

The home view has one count of seconds for all of its sections, and every poll that brings
anything sets it back.  So a card whose own call failed grows older with the seconds only until
another section is learned.  Sections 1 and 2 say what a card shows and how the count follows
from what the task does, Section 3 that a section whose call brings nothing stays, and Section 4
when exactly a card looks younger than before, and when it looks online again.
-/
import HouseBoard.Board.Render
import HouseBoard.Proofs.Cycle

namespace HouseBoard

/-! ## Section 1 — device cards -/

/-- The device cards of the home view. -/
inductive HomeCard where
  | heaters
  | alarm
  deriving DecidableEq, Repr

namespace HomeCard

/-- The call that brings the device of a card. -/
def call : HomeCard → Call
  | .heaters => .heaters
  | .alarm => .alarm

/-- The device of a card. -/
def device? (c : HomeCard) (s : HomeSnapshot) : Option DeviceState :=
  match c with
  | .heaters => s.heaters.map (·.device)
  | .alarm => s.alarm.map (·.device)

/-- The card as it is shown. -/
def shown? (c : HomeCard) (m : HomeModel) : Option DeviceCard :=
  match c with
  | .heaters => m.heaters
  | .alarm => m.outdoorAlarm

/-- A card shows its device. -/
theorem shown?_render (c : HomeCard) (s : HomeSnapshot) (ctx : ViewContext) :
    c.shown? (s.render ctx) = (c.device? s).map fun d => DeviceCard.ofDevice d ctx := by
  cases c with
  | heaters =>
    simp only [shown?, HomeSnapshot.render, device?, Option.map_map]
    rfl
  | alarm =>
    simp only [shown?, HomeSnapshot.render, device?, Option.map_map]
    rfl

end HomeCard

namespace Board

/-- A card as a view shows it. -/
def card? (b : Board) (id : ViewId) (c : HomeCard) : Option DeviceCard :=
  match (b.render .home id).model with
  | some (.home m) => c.shown? m
  | _ => none

/-- The device behind a card. -/
def device? (b : Board) (id : ViewId) (c : HomeCard) : Option DeviceState :=
  (b.store.get? id).bind fun slot => c.device? (Snapshot.sections slot.snapshot)

/-- The liveness behind a card. -/
def liveness? (b : Board) (id : ViewId) (c : HomeCard) : Option Liveness :=
  (b.store.get? id).bind fun slot => (c.device? (Snapshot.sections slot.snapshot)).map fun d =>
    (LivenessSample.ofReport d.lastSeenAt d.lastSeenFromNow .caniot b.policy).evaluate
      slot.offset .minimal

/-- A card shows the liveness behind it. -/
theorem card?_liveness (b : Board) (id : ViewId) (c : HomeCard) :
    (b.card? id c).map (fun card => (card.liveness.online, card.liveness.label)) =
      (b.liveness? id c).map fun l => (l.online, l.label) := by
  simp only [card?, render, liveness?]
  cases b.store.get? id with
  | none => rfl
  | some slot =>
    obtain ⟨kind, snapshot, offset, polledAt⟩ := slot
    cases snapshot with
    | none => cases c <;> rfl
    | some s =>
      cases s with
      | home sections =>
        simp only [Option.map_some, Option.bind_some, Snapshot.render, Snapshot.sections,
          HomeCard.shown?_render, Option.map_map]
        rfl
      | _ => cases c <;> rfl

/-- A card is shown with a liveness. -/
def Shows (b : Board) (id : ViewId) (c : HomeCard) (l : Liveness) : Prop :=
  b.liveness? id c = some l ∧
    ∃ card, b.card? id c = some card ∧ card.liveness.online = l.online ∧
    card.liveness.label = l.label

theorem shows_of_liveness? {b : Board} {id : ViewId} {c : HomeCard} {l : Liveness}
    (h : b.liveness? id c = some l) : b.Shows id c l := by
  have hcard := b.card?_liveness id c
  rw [h] at hcard
  obtain ⟨card, hshown, heq⟩ := Option.map_eq_some_iff.mp hcard
  obtain ⟨honline, hlabel⟩ := Prod.mk.inj heq
  exact ⟨h, card, hshown, honline, hlabel⟩

end Board

/-! ## Section 2 — seconds -/

namespace Effect

/-- The seconds that have passed after an effect. -/
def elapse (seconds : Nat) : Effect → Nat
  | .commit _ => 0
  | .tick => seconds + 1
  | _ => seconds

/-- The seconds that have passed since the last state was learned, after an effect; none if
none was learned. -/
def since (seconds : Option Nat) : Effect → Option Nat
  | .commit _ => some 0
  | .tick => seconds.map (· + 1)
  | _ => seconds

/-- Seconds are counted from the last state that was learned, or added to those before. -/
theorem foldl_elapse (es : List Effect) (o : Nat) (n : Option Nat) (k : Nat) :
    es.foldl elapse (n.getD (o + k)) = (es.foldl since n).getD (o + (k + es.count .tick)) := by
  induction es generalizing n k with
  | nil => rfl
  | cons e es ih =>
    rw [List.foldl_cons, List.foldl_cons]
    cases e with
    | commit snapshot =>
      have hcount : (Effect.commit snapshot :: es).count .tick = es.count .tick :=
        List.count_cons_of_ne (by simp)
      rw [hcount]
      exact ih (some 0) k
    | tick =>
      rw [List.count_cons_self, Nat.add_comm (es.count .tick), ← Nat.add_assoc k]
      cases n with
      | none => exact ih none (k + 1)
      | some m => exact ih (some (m + 1)) (k + 1)
    | _ =>
      rw [List.count_cons_of_ne (by simp)]
      exact ih n k

end Effect

/-- The seconds that have passed for a view since it last learned a state in the
course of a run. -/
def Happening.sinceCommit? (id : ViewId) (h : List Happening) : Option Nat :=
  (effects id h).foldl Effect.since none

theorem addSeconds_congr {m n : Nat} (h : addSeconds 0 m = addSeconds 0 n) (k : Nat) :
    addSeconds k m = addSeconds k n := by
  simp only [addSeconds] at h ⊢
  omega

/-- The count of a slot is the seconds that have passed, up to the largest number of seconds. -/
theorem Slot.foldl_take_offset (es : List Effect) {slot : Slot} {seconds : Nat}
    (h : addSeconds 0 slot.offset = addSeconds 0 seconds) (wall : Int) :
    addSeconds 0 (es.foldl (Slot.take wall) slot).offset =
      addSeconds 0 (es.foldl Effect.elapse seconds) := by
  induction es generalizing slot seconds with
  | nil => exact h
  | cons e es ih =>
    rw [List.foldl_cons, List.foldl_cons]
    refine ih ?_
    cases e with
    | commit snapshot => rfl
    | tick =>
      simp only [take, tick, Effect.elapse, addSeconds] at h ⊢
      omega
    | _ => exact h

/-! ## Section 3 — sections that are not learned -/

/-- A fetch of the home view has taken nothing up before it ends. -/
theorem Fetch.Agrees.taken_home {p : Poll} {f : Fetch} (h : f.Agrees p .home) :
    p.taken = [] := by
  generalize hkind : ViewKind.home = kind at h
  cases h with
  | home hheaters halarm halerts hble htaken => exact htaken
  | @plain v pending hpending htaken => exact htaken
  | device hpending howners htaken => exact htaken
  | controller hstate howner hpending htaken => cases hkind

/-- A card whose call is not taken up as a success keeps its device. -/
theorem Poll.device?_eq {p : Poll} {c : HomeCard} {new : HomeSnapshot}
    (hrenews : p.known.Renews p new) (hno : .succeed c.call ∉ p.settled .home) :
    c.device? new = c.device? p.known := by
  have hfresh : p.fresh? c.call = none := by
    cases hanswer : p.answers c.call with
    | none => simp [fresh?, hanswer]
    | some o =>
      cases o with
      | error e => simp [fresh?, hanswer, Except.toOption]
      | ok a =>
        refine absurd ?_ hno
        cases c with
        | heaters =>
          simp only [HomeCard.call] at hanswer
          simp [settled, Answers.settlement, hanswer, Effect.ofOutcome, HomeCard.call]
        | alarm =>
          simp only [HomeCard.call] at hanswer
          simp [settled, Answers.settlement, hanswer, Effect.ofOutcome, HomeCard.call]
  cases c with
  | heaters =>
    have hfresh : p.fresh? .heaters = none := hfresh
    simp only [HomeCard.device?, hrenews.heaters, hfresh, Option.none_or]
  | alarm =>
    have hfresh : p.fresh? .alarm = none := hfresh
    simp only [HomeCard.device?, hrenews.alarm, hfresh, Option.none_or]

/-- A turn of the home view in which the call of a card is not taken up as a success keeps the
device of the card. -/
theorem ViewTask.Turned.device?_eq {b : Board} {t t' : ViewTask} {p : Poll} {m : Move}
    {es : List Effect} {slot : Slot} {c : HomeCard} (h : t.Turned b p m es t')
    (hkind : t.kind = .home) (hp : ∀ f, t.fetch = some f → f.Agrees p t.kind)
    (hknown : p.known = Snapshot.sections slot.snapshot) (hno : .succeed c.call ∉ es)
    (wall : Int) :
    c.device? (Snapshot.sections (es.foldl (Slot.take wall) slot).snapshot) =
      c.device? (Snapshot.sections slot.snapshot) := by
  cases h with
  | idle hm hfetch => rfl
  | ticked hfetch => rfl
  | opened hquiet hfetch hagrees => rw [Slot.foldl_take_of_isQuiet hquiet]
  | underway hquiet hbefore hfetch hagrees hsleeps => rw [Slot.foldl_take_of_isQuiet hquiet]
  | @ended es₀ _ learned hquiet hbefore hfetch hlearned htaken =>
    rw [List.foldl_append, Slot.foldl_take_of_isQuiet hquiet]
    cases learned with
    | none => rfl
    | some s =>
      obtain ⟨f, hf⟩ := Option.isSome_iff_exists.mp hbefore
      have hagrees := hp f hf
      rw [hkind] at hagrees hlearned htaken
      rw [Poll.see_taken, hagrees.taken_home, List.nil_append] at htaken
      obtain ⟨new, rfl, hrenews⟩ := Poll.renews_of_learned? hlearned
      have hsettled : .succeed c.call ∉ (p.see b.script es₀).settled .home := by
        rw [← htaken]
        intro hmem
        exact hno (List.mem_append_left _ (List.mem_filter.mp hmem).1)
      have hsame := Poll.device?_eq hrenews hsettled
      rw [Poll.see_known, hknown] at hsame
      exact hsame

/-! ## Section 4 — cards that are not learned -/

/-- A home view has a device behind a card, and some seconds have passed since its
sections were learned. -/
def Board.Holds (b : Board) (id : ViewId) (c : HomeCard) (d : DeviceState)
    (seconds : Nat) : Prop :=
  ∀ t, b.task? id = some t → t.kind = .home ∧ ∃ slot, b.store.get? id = some slot ∧
    c.device? (Snapshot.sections slot.snapshot) = some d ∧
    addSeconds 0 slot.offset = addSeconds 0 seconds

/-- A step in which the call of a card is not taken up as a success keeps the device
of the card. -/
theorem Step.holds {b b' : Board} {x : Happening} {id : ViewId} {c : HomeCard} {d : DeviceState}
    {seconds : Nat} (h : Step b x b') (htidy : b.Tidy) (hsound : b.Sound) (hid : id < b.nextId)
    (hno : .succeed c.call ∉ x.effectsOf id) (hb : b.Holds id c d seconds) :
    b'.Holds id c d ((x.effectsOf id).foldl Effect.elapse seconds) := by
  intro t' ht'
  cases h.origin htidy ht' with
  | other hx ht hslot =>
    rw [Happening.effectsOf_of_other hx, hslot]
    exact hb t' ht
  | mounted hnext => exact absurd hnext (Nat.ne_of_lt hid)
  | @dropped t ht hslot =>
    rw [hslot]
    exact hb t ht
  | @moved t m ht hallows htaken =>
    simp only [Happening.effectsOf, if_true] at hno ⊢
    obtain ⟨hkind, slot, hslot, hdevice, hseconds⟩ := hb t ht
    obtain ⟨slot₀, hslot₀, hs⟩ := hsound id t ht
    rw [hslot] at hslot₀
    cases hslot₀
    obtain ⟨p, hp, hknown⟩ := hs.exists_poll
    have hturn := b.turn_cases t m hp
    refine ⟨(b.turn_kind t m).trans hkind, _, htaken.trans (congrArg _ hslot), ?_, ?_⟩
    · exact (hturn.device?_eq hkind hp hknown hno b.wall).trans hdevice
    · exact Slot.foldl_take_offset _ hseconds b.wall

/-- A run in which the call of a card is not taken up as a success keeps the device
of the card. -/
theorem Run.holds {b b' : Board} {h : List Happening} {id : ViewId} {c : HomeCard}
    {d : DeviceState} {seconds : Nat} (hrun : Run b h b') (htidy : b.Tidy) (hsound : b.Sound)
    (hid : id < b.nextId) (hno : .succeed c.call ∉ Happening.effects id h)
    (hb : b.Holds id c d seconds) :
    b'.Holds id c d ((Happening.effects id h).foldl Effect.elapse seconds) := by
  induction hrun with
  | refl => exact hb
  | @step b₁ b₂ h₁ x hrun₁ hstep ih =>
    have heffects : Happening.effects id [x] = x.effectsOf id := by simp [Happening.effects]
    rw [Happening.effects_append, heffects] at hno ⊢
    simp only [List.mem_append, not_or] at hno
    rw [List.foldl_append]
    have hlt := Nat.lt_of_lt_of_le hid hrun₁.nextId_le
    exact hstep.holds (hrun₁.tidy htidy) (hrun₁.sound htidy hsound) hlt hno.2 (ih hno.1)

/-- The age that is reported for a device; none counts as zero. -/
def DeviceState.reportedAge (d : DeviceState) : Nat := d.lastSeenFromNow.getD 0

/-- How a card looks whose device was heard, some seconds after its section was learned. -/
theorem Board.Holds.liveness? {b : Board} {id : ViewId} {c : HomeCard} {d : DeviceState}
    {seconds : Nat} {t : ViewTask} (hb : b.Holds id c d seconds) (ht : b.task? id = some t)
    (hseen : d.lastSeenAt.isSome = true) :
    b.liveness? id c = some
      { online := decide (addSeconds d.reportedAge seconds < b.policy.caniotThreshold)
        label := humanize (addSeconds d.reportedAge seconds)
        effectiveAge := some (addSeconds d.reportedAge seconds) } := by
  obtain ⟨_, slot, hslot, hdevice, hseconds⟩ := hb t ht
  obtain ⟨seen, hseen⟩ := Option.isSome_iff_exists.mp hseen
  have hage : addSeconds d.reportedAge slot.offset = addSeconds d.reportedAge seconds :=
    addSeconds_congr hseconds _
  rw [← hage]
  simp [Board.liveness?, hslot, hdevice, LivenessSample.ofReport,
    LivenessSample.evaluate, hseen, LivenessPolicy.threshold, LabelStyle.label,
    DeviceState.reportedAge]
  rfl

/-- The heaters answer the first poll of a home view and not the second one, and a second passes
between the two. -/
theorem Run.stale_heaters :
    ∃ (h₀ h : List Happening) (b b' : Board) (t t' : ViewTask) (d : DeviceState),
    Run (Board.start { liveness := ⟨6, 300⟩ } ⟨200, 150, by decide, by decide⟩ 0 ⟨0⟩) h₀ b ∧
      b.task? 1 = some t ∧
      t.kind = .home ∧ b.device? 1 .heaters = some d ∧ d.lastSeenAt.isSome = true ∧ Run b h b' ∧
      b'.task? 1 = some t' ∧ .succeed .heaters ∉ Happening.effects 1 h ∧ b.Quiet ∧ b'.Quiet ∧
      b.liveness? 1 .heaters = some ⟨false, "6s", some 6⟩ ∧
      b'.liveness? 1 .heaters = some ⟨true, "5s", some 5⟩ := by
  let d : DeviceState :=
    { (default : DeviceState) with lastSeenAt := some default, lastSeenFromNow := some 5 }
  let script : Script := { heaters := some { (default : HeaterState) with device := d } }
  let b₀ := Board.start { liveness := ⟨6, 300⟩ } ⟨200, 150, by decide, by decide⟩ 0 ⟨0⟩
  let b₁ := ((b₀.attend (.script script)).hold .home).2
  let b₂ := b₁.move 1 .poll
  let b₃ := { b₂.move 1 .answers with now := 150 }
  let b₄ := b₃.move 1 .tick
  let b₅ := { b₄.attend (.script {}) with now := 200 }
  let b₆ := b₅.move 1 .poll
  let b₇ := b₆.move 1 .answers
  have hopen₁ : Step b₁ (b₁.moving 1 .poll) b₂ := .of_canMove (by decide +kernel)
  have hclose₁ : Step b₂ (b₂.moving 1 .answers) (b₂.move 1 .answers) :=
    .of_canMove (by decide +kernel)
  have hpass₁ : (b₂.move 1 .answers).SleepsUntil 150 := by decide +kernel
  have htick : Step b₃ (b₃.moving 1 .tick) b₄ := .of_canMove (by decide +kernel)
  have hrun₀ : Run b₀ _ b₄ :=
    .cons (.attend b₀ _) <| .cons (.hold _ .home) <| .cons hopen₁ <| .cons hclose₁ <|
      .cons (.pass (by decide +kernel) hpass₁) <| .single htick
  have hpass₂ : (b₄.attend (.script {})).SleepsUntil 200 := by decide +kernel
  have hopen₂ : Step b₅ (b₅.moving 1 .poll) b₆ := .of_canMove (by decide +kernel)
  have hclose₂ : Step b₆ (b₆.moving 1 .answers) b₇ := .of_canMove (by decide +kernel)
  have hrun : Run b₄ _ b₇ :=
    .cons (.attend b₄ _) <| .cons (.pass (by decide +kernel) hpass₂) <| .cons hopen₂ <|
      .single hclose₂
  have hsome : (b₄.task? 1).isSome = true := by decide +kernel
  have hsome' : (b₇.task? 1).isSome = true := by decide +kernel
  have hkind : (b₄.task? 1).all (fun t => decide (t.kind = .home)) = true := by decide +kernel
  obtain ⟨t, ht⟩ := Option.isSome_iff_exists.mp hsome
  obtain ⟨t', ht'⟩ := Option.isSome_iff_exists.mp hsome'
  rw [ht] at hkind
  refine ⟨_, _, b₄, b₇, t, t', d, hrun₀, ht, of_decide_eq_true hkind, ?_, rfl, hrun, ht', ?_,
    ?_, ?_, ?_, ?_⟩
  · decide +kernel
  · decide +kernel
  · decide +kernel
  · decide +kernel
  · decide +kernel
  · decide +kernel

/-- A card whose call is not taken up as a success looks younger than before exactly if another
section was learned so lately that the seconds since then do not make up for the age that the
card had reached; and it is online again exactly if they do not lead to the threshold either. -/
theorem Run.card_younger_iff {s : Settings} {intervals : Intervals} {wall : Int}
    {firstToast : Uuid} {h₀ h : List Happening} {b b' : Board} {id : ViewId} {t t' : ViewTask}
    {c : HomeCard} {d : DeviceState}
    (hrun₀ : Run (Board.start s intervals wall firstToast) h₀ b) (ht : b.task? id = some t)
    (hkind : t.kind = .home) (hdevice : b.device? id c = some d)
    (hseen : d.lastSeenAt.isSome = true) (hrun : Run b h b') (ht' : b'.task? id = some t')
    (hno : .succeed c.call ∉ Happening.effects id h) :
    ∃ l l' age age', b.Shows id c l ∧ b'.Shows id c l' ∧ l.effectiveAge = some age ∧
      l'.effectiveAge = some age' ∧
      (age' < age ↔ ∃ n, Happening.sinceCommit? id h = some n ∧
        addSeconds d.reportedAge n < age) ∧
      (l.online = false ∧ l'.online = true ↔ ∃ n, Happening.sinceCommit? id h = some n ∧
        addSeconds d.reportedAge n < s.liveness.caniotThreshold ∧
        s.liveness.caniotThreshold ≤ age) := by
  have htidy := hrun₀.tidy (Board.tidy_start s intervals wall firstToast)
  have hsound := hrun₀.sound (Board.tidy_start ..)
    (Board.sound_start s intervals wall firstToast)
  have hpolicy : b.policy = s.liveness := hrun₀.settings_eq.2
  obtain ⟨slot, hslot, _⟩ := hsound id t ht
  simp only [Board.device?, hslot, Option.bind_some] at hdevice
  have hid : id < b.nextId := htidy.lt_of_get? hslot
  have hholds : b.Holds id c d slot.offset := by
    intro u hu
    rw [ht] at hu
    cases hu
    exact ⟨hkind, slot, hslot, hdevice, rfl⟩
  have hholds' := hrun.holds htidy hsound hid hno hholds
  have hcount : (Happening.effects id h).foldl Effect.elapse slot.offset =
      (Happening.sinceCommit? id h).getD (slot.offset + Happening.ticks id h) := by
    have hfold := Effect.foldl_elapse (Happening.effects id h) slot.offset none 0
    rwa [Nat.zero_add] at hfold
  rw [hcount] at hholds'
  refine ⟨_, _, _, _, Board.shows_of_liveness? (hholds.liveness? ht hseen),
    Board.shows_of_liveness? (hholds'.liveness? ht' hseen), rfl, rfl, ?_⟩
  rw [hrun.settings_eq.2, hpolicy]
  cases hsince : Happening.sinceCommit? id h with
  | some n => simp [and_comm]
  | none =>
    -- without a state that was learned, the seconds only add up
    have hle : addSeconds d.reportedAge slot.offset ≤
        addSeconds d.reportedAge (slot.offset + Happening.ticks id h) := by
      simp only [addSeconds]
      omega
    simp only [Option.getD_none, reduceCtorEq, false_and, exists_false, iff_false,
      decide_eq_true_eq, decide_eq_false_iff_not]
    omega

/-- The seconds since another section was learned do not make up for the age that the
heaters had reached. -/
theorem Run.card_younger_of_stale_heaters :
    ∃ (h₀ h : List Happening) (b b' : Board) (d : DeviceState) (l l' : Liveness)
    (age age' n : Nat),
    Run (Board.start { liveness := ⟨6, 300⟩ } ⟨200, 150, by decide, by decide⟩ 0 ⟨0⟩) h₀ b ∧
      Run b h b' ∧
      b.device? 1 .heaters = some d ∧ .succeed HomeCard.heaters.call ∉ Happening.effects 1 h ∧
      b.Shows 1 .heaters l ∧ b'.Shows 1 .heaters l' ∧ l.effectiveAge = some age ∧
      l'.effectiveAge = some age' ∧
      age' < age ∧ Happening.sinceCommit? 1 h = some n ∧ addSeconds d.reportedAge n < age := by
  obtain ⟨h₀, h, b, b', t, t', d, hrun₀, ht, hkind, hdevice, hseen, hrun, ht', hno, _, _, hl,
    hl'⟩ := stale_heaters
  obtain ⟨l, l', age, age', hl₁, hl₁', hage, hage', hyounger, _⟩ :=
    Run.card_younger_iff (c := .heaters) hrun₀ ht hkind hdevice hseen hrun ht' hno
  have hlt : age' < age := by
    cases Option.some.inj (hl.symm.trans hl₁.1)
    cases Option.some.inj (hl'.symm.trans hl₁'.1)
    cases hage
    cases hage'
    decide
  obtain ⟨n, hn, hless⟩ := hyounger.mp hlt
  exact ⟨h₀, h, b, b', d, l, l', age, age', n, hrun₀, hrun, hdevice, hno, hl₁, hl₁', hage,
    hage', hlt, hn, hless⟩

/-- A card that looked offline looks online again, although its call brought nothing
in between. -/
theorem Run.card_online_again : ∃ (h₀ h : List Happening) (b b' : Board) (l l' : Liveness),
    Run (Board.start { liveness := ⟨6, 300⟩ } ⟨200, 150, by decide, by decide⟩ 0 ⟨0⟩) h₀ b ∧
      Run b h b' ∧
      (b.task? 1).any (fun t => t.kind = .home) = true ∧ (b'.task? 1).isSome = true ∧
      b.Quiet ∧ b'.Quiet ∧
      .succeed HomeCard.heaters.call ∉ Happening.effects 1 h ∧ b.Shows 1 .heaters l ∧
      b'.Shows 1 .heaters l' ∧
      l.effectiveAge = some 6 ∧ l.online = false ∧ l'.effectiveAge = some 5 ∧
      l'.online = true := by
  obtain ⟨h₀, h, b, b', t, t', d, hrun₀, ht, hkind, _, _, hrun, ht', hno, hquiet, hquiet', hl,
    hl'⟩ := stale_heaters
  exact ⟨h₀, h, b, b', _, _, hrun₀, hrun, by simp [ht, hkind], by simp [ht'],
    hquiet, hquiet', hno, Board.shows_of_liveness? hl, Board.shows_of_liveness? hl', rfl,
    rfl, rfl, rfl⟩

end HouseBoard
