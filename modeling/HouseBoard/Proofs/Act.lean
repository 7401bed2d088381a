/-
HouseBoard.Proofs.Act — what acts do, as conditions on effects and values.

An act only ever adds effects to those it finds.  `Act.Ensures m P` says that, whatever was done
before, what `m` adds and what it gives together meet `P`; the rules below follow the way acts
are put together, so that no later proof looks at a turn.  The sections after them hold one
condition for each thing that is done with a call: it is made, its answer arrives, its answer is
taken up.
-/
import HouseBoard.Board.Fetch

namespace HouseBoard

/-! ## Section 1 — conditions on acts -/

namespace Act

variable {α β : Type}

/-- An act that starts from a turn. -/
def exec (m : Act α) (turn : Turn) : α × Turn := m.run turn

/-- What an act adds and what it gives meet a condition, whatever was done before. -/
def Ensures (m : Act α) (P : List Effect → α → Prop) : Prop :=
  ∀ turn : Turn, ∃ es, (m.exec turn).2.effects = turn.effects ++ es ∧ P es (m.exec turn).1

theorem Ensures.mono {m : Act α} {P Q : List Effect → α → Prop} (h : m.Ensures P)
    (hPQ : ∀ es a, P es a → Q es a) : m.Ensures Q := by
  intro turn
  obtain ⟨es, hes, hP⟩ := h turn
  exact ⟨es, hes, hPQ _ _ hP⟩

theorem ensures_pure {a : α} {P : List Effect → α → Prop} (h : P [] a) :
    (pure a : Act α).Ensures P :=
  fun turn => ⟨[], (List.append_nil turn.effects).symm, h⟩

theorem ensures_emit {e : Effect} {P : List Effect → Unit → Prop} (h : P [e] ()) :
    (emit e).Ensures P :=
  fun _ => ⟨[e], rfl, h⟩

theorem ensures_stamp {P : List Effect → Nat → Prop} (h : ∀ n, P [] n) : stamp.Ensures P :=
  fun turn => ⟨[], (List.append_nil turn.effects).symm, h turn.nextStamp⟩

/-- Effects of acts that follow each other are put together in that order. -/
theorem Ensures.bind {m : Act α} {f : α → Act β} {P : List Effect → α → Prop}
    {Q : List Effect → β → Prop} (hm : m.Ensures P)
    (hf : ∀ es a, P es a → (f a).Ensures fun es' b => Q (es ++ es') b) :
    (m >>= f).Ensures Q := by
  intro turn
  obtain ⟨es, hes, hP⟩ := hm turn
  obtain ⟨es', hes', hQ⟩ := hf es _ hP (m.exec turn).2
  refine ⟨es ++ es', ?_, hQ⟩
  rw [← List.append_assoc, ← hes]
  exact hes'

/-- The effects of an act that starts with none. -/
theorem Ensures.exec {m : Act α} {P : List Effect → α → Prop} (h : m.Ensures P) (n : Nat) :
    P (m.exec { nextStamp := n }).2.effects (m.exec { nextStamp := n }).1 := by
  obtain ⟨es, hes, hP⟩ := h { nextStamp := n }
  rw [List.nil_append] at hes
  rw [hes]
  exact hP

end Act

/-! ## Section 2 — answers and settlements among effects -/

namespace Effect

/-- Whether an effect belongs to a call on its way. -/
def IsAbout (c : Call) (e : Effect) : Prop := e = .start c ∨ e = .complete c

/-- Whether an effect is that a call was made or answered. -/
def isCall : Effect → Bool
  | .start _ => true
  | .complete _ => true
  | _ => false

/-- Whether an effect is that an answer was taken up. -/
def isSettlement : Effect → Bool
  | .succeed _ => true
  | .fail _ _ => true
  | _ => false

/-- How the answer to a call is taken up. -/
def ofOutcome (c : Call) : Outcome c → Effect
  | .ok _ => .succeed c
  | .error e => .fail c e

@[simp] theorem isSettlement_ofOutcome (c : Call) (o : Outcome c) :
    (ofOutcome c o).isSettlement = true := by
  cases o <;> rfl

theorem IsAbout.isCall {c : Call} {e : Effect} (h : e.IsAbout c) : e.isCall = true := by
  rcases h with rfl | rfl <;> rfl

theorem isSettlement_of_isCall {e : Effect} (h : e.isCall = true) : e.isSettlement = false := by
  cases e <;> simp_all [Effect.isCall, isSettlement]

end Effect

/-- The settlements among effects. -/
def settlements (es : List Effect) : List Effect := es.filter Effect.isSettlement

@[simp] theorem settlements_nil : settlements [] = [] := by
  rw [settlements, List.filter_nil]

@[simp] theorem settlements_append (es es' : List Effect) :
    settlements (es ++ es') = settlements es ++ settlements es' := List.filter_append ..

theorem settlements_eq_nil_of_isCall {es : List Effect} (h : ∀ e ∈ es, e.isCall = true) :
    settlements es = [] := by
  rw [settlements, List.filter_eq_nil_iff]
  intro e he
  rw [Effect.isSettlement_of_isCall (h e he)]
  exact Bool.false_ne_true

namespace Script

/-- The answer to a call that arrives with effects. -/
def answer? (s : Script) (es : List Effect) (c : Call) : Option (Outcome c) :=
  if .complete c ∈ es then some (s.outcome c) else none

@[simp] theorem answer?_nil (s : Script) (c : Call) : s.answer? [] c = none := by simp [answer?]

/-- An answer that arrives twice is the same answer. -/
theorem answer?_append (s : Script) (es es' : List Effect) (c : Call) :
    s.answer? (es ++ es') c = (s.answer? es c).or (s.answer? es' c) := by
  by_cases h : .complete c ∈ es <;> by_cases h' : .complete c ∈ es' <;> simp [answer?, h, h']

/-- A call is not answered by what belongs to another one. -/
theorem answer?_eq_none_of_about {s : Script} {es : List Effect} {c c' : Call}
    (h : ∀ e ∈ es, e.IsAbout c) (hne : c ≠ c') : s.answer? es c' = none := by
  refine if_neg fun hmem => ?_
  rcases h _ hmem with heq | heq
  · cases heq
  · exact hne (Effect.complete.inj heq).symm

/-- A call is not answered by settlements. -/
theorem answer?_eq_none_of_settlement {s : Script} {es : List Effect}
    (h : ∀ e ∈ es, e.isSettlement = true) (c : Call) : s.answer? es c = none := by
  refine if_neg fun hmem => ?_
  have := h _ hmem
  cases this

end Script

/-! ## Section 3 — calls -/

namespace Pending

variable {c : Call}

/-- A call that is made is on its way for as long as it takes, and answered at once if
it takes no time. -/
theorem start_cases (scene : Scene) (c : Call) :
    (Pending.start scene c).Ensures fun es p =>
      (∃ ms stamp, scene.script.delayOf c = some ms ∧ es = [.start c] ∧
        p = .waiting (scene.now + ms) stamp) ∨
      (scene.script.delayOf c = none ∧ es = [.start c, .complete c] ∧
        p = .answered (scene.script.outcome c)) := by
  unfold Pending.start
  refine (Act.ensures_emit (P := fun es _ => es = [.start c]) rfl).bind ?_
  rintro _ ⟨⟩ rfl
  cases hdelay : scene.script.delayOf c with
  | some ms =>
    refine (Act.ensures_stamp (P := fun es _ => es = []) fun _ => rfl).bind ?_
    rintro _ stamp rfl
    exact Act.ensures_pure (.inl ⟨ms, stamp, rfl, rfl, rfl⟩)
  | none =>
    refine (Act.ensures_emit (P := fun es _ => es = [.complete c]) rfl).bind ?_
    rintro _ ⟨⟩ rfl
    exact Act.ensures_pure (.inr ⟨rfl, rfl, rfl⟩)

/-- A call that is made is answered at once if it takes no time. -/
theorem start_ensures (scene : Scene) (c : Call) :
    (Pending.start scene c).Ensures fun es p =>
      (∀ e ∈ es, e.IsAbout c) ∧ p.outcome? = scene.script.answer? es c := by
  refine (start_cases scene c).mono fun es p h => ?_
  obtain ⟨ms, stamp, _, rfl, rfl⟩ | ⟨_, rfl, rfl⟩ := h
  · simp [Effect.IsAbout, outcome?, Script.answer?]
  · simp [Effect.IsAbout, outcome?, Script.answer?]

/-- An answer arrives when it is due, and a call is left as it is before that and
once it is answered. -/
theorem proceed_cases (scene : Scene) (p : Pending c) :
    (p.proceed scene).Ensures fun es p' =>
      (es = [] ∧ p' = p ∧ ∀ e ∈ p.timer?, scene.now < e.1) ∨
      (∃ due stamp, p = .waiting due stamp ∧ due ≤ scene.now ∧ es = [.complete c] ∧
        p' = .answered (scene.script.outcome c)) := by
  cases p with
  | answered o => exact Act.ensures_pure (.inl ⟨rfl, rfl, by simp [timer?]⟩)
  | waiting due stamp =>
    simp only [proceed]
    by_cases hdue : due ≤ scene.now
    · rw [if_pos hdue]
      refine (Act.ensures_emit (P := fun es _ => es = [.complete c]) rfl).bind ?_
      rintro _ ⟨⟩ rfl
      exact Act.ensures_pure (.inr ⟨due, stamp, rfl, hdue, rfl, rfl⟩)
    · rw [if_neg hdue]
      exact Act.ensures_pure (.inl ⟨rfl, rfl, by simpa [timer?] using Nat.lt_of_not_le hdue⟩)

/-- An answer arrives when it is due; what is still awaited afterwards is due later. -/
theorem proceed_ensures (scene : Scene) (p : Pending c) :
    (p.proceed scene).Ensures fun es p' =>
      (∀ e ∈ es, e.IsAbout c) ∧ p'.outcome? = p.outcome?.or (scene.script.answer? es c) ∧
        (∀ e ∈ p'.timer?, scene.now < e.1) := by
  refine (proceed_cases scene p).mono fun es p' h => ?_
  obtain ⟨rfl, rfl, hlate⟩ | ⟨due, stamp, rfl, _, rfl, rfl⟩ := h
  · exact ⟨by simp, by simp, hlate⟩
  · simp [Effect.IsAbout, outcome?, Script.answer?, timer?]

/-- A call without an outcome has a timer. -/
theorem timer?_isSome_of_outcome? {p : Pending c} (h : p.outcome? = none) :
    p.timer?.isSome = true := by
  cases p with
  | waiting due stamp => rfl
  | answered o => cases h

end Pending

/-- The outcome of a call is taken up in one effect. -/
theorem Act.settle_ensures (c : Call) (o : Outcome c) :
    (Act.settle c o).Ensures fun es r => es = [.ofOutcome c o] ∧ r = o.toOption := by
  cases o with
  | ok a =>
    refine (Act.ensures_emit (P := fun es _ => es = [.succeed c]) rfl).bind ?_
    rintro _ ⟨⟩ rfl
    exact Act.ensures_pure ⟨rfl, rfl⟩
  | error e =>
    refine (Act.ensures_emit (P := fun es _ => es = [.fail c e]) rfl).bind ?_
    rintro _ ⟨⟩ rfl
    exact Act.ensures_pure ⟨rfl, rfl⟩

end HouseBoard
