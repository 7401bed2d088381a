/-
HouseBoard.Proofs.Tiers — the tier of a temperature is the number of bounds that it has reached.

What summer takes off a temperature is taken off exactly wherever a bound could notice (Section
1): the difference is rounded only when it is far above all bounds or so far below that they do
not matter.  Section 2 follows the search for the first step that a value lies below: since the
bounds rise, its place is the number of those that were reached.  Section 3 says this of
temperatures.
-/
import Mathlib.Data.Rat.Lemmas
import Mathlib.Tactic.Linarith
import HouseBoard.Display.Comfort
import HouseBoard.Proofs.Rounding

namespace HouseBoard

namespace Binary64

/-! ## Section 1 — bounds -/

/-- Numbers of smallest steps are ordered as the rational numbers that they stand for. -/
theorem mul_one_le_iff {i x : Int} {q : Rat} (h : q * one = x) :
    i * one ≤ x ↔ (i : Rat) ≤ q := by
  have hone : (0 : Rat) < one := Nat.cast_pos.mpr one_pos
  rw [← Int.cast_le (R := Rat), ← h, Int.cast_mul, Int.cast_natCast, mul_le_mul_iff_left₀ hone]

/-- A finite value is not below a bound if it has reached it. -/
theorem below_eq_false_iff {v : Binary64} {q : Rat} (h : v.toRat? = some q) (b : Int) :
    v.below b 1 = false ↔ (b : Rat) ≤ q := by
  obtain ⟨n, s, u, rfl, hq⟩ := toRat?_eq_some_iff.mp h
  rw [← mul_one_le_iff hq, below, decide_eq_false_iff_not, Nat.cast_one,
    Int.mul_one, Int.not_lt]

/-- What remains below a whole number when a whole number is taken off a value is a
point of a grid. -/
theorem isPoint_of_add {s u k b x : Nat} (hs : s < 2 ^ 53) (hx : x + k * one = s * 2 ^ u)
    (hb : b ≤ 2 ^ 53) (hlt : x < b * one) : IsPoint x := by
  obtain ⟨e, he⟩ : ∃ e, e = 1074 := ⟨_, rfl⟩
  rw [one_eq he] at hx hlt
  rcases Nat.le_total u e with hfine | hcoarse
  · -- on a grid that is finer than that of whole numbers both numbers are points
    refine ⟨s - k * 2 ^ (e - u), u, by omega, ?_⟩
    have hwhole : k * 2 ^ (e - u) * 2 ^ u = k * 2 ^ e := by
      rw [Nat.mul_assoc, ← Nat.pow_add, Nat.sub_add_cancel hfine]
    rw [Nat.sub_mul, hwhole]
    omega
  · -- otherwise both are whole, and so is what remains
    have hvalue : s * 2 ^ (u - e) * 2 ^ e = s * 2 ^ u := by
      rw [Nat.mul_assoc, ← Nat.pow_add, Nat.sub_add_cancel hcoarse]
    have hrest : x = (s * 2 ^ (u - e) - k) * 2 ^ e := by
      rw [Nat.sub_mul, hvalue]
      omega
    rw [hrest] at hlt
    exact ⟨_, e, Nat.lt_of_lt_of_le (Nat.lt_of_mul_lt_mul_right hlt) hb, hrest⟩

/-- Rounding brings no number to a whole one, or away from it, that decides about a bound. -/
theorem nearestSteps_lt_iff {s u k b x : Nat} (hs : s < 2 ^ 53) (hx : x + k * one = s * 2 ^ u)
    (hb : b < 2 ^ 53) : nearestSteps x 1 < b * one ↔ x < b * one := by
  constructor
  · intro h
    by_contra hge
    have hreached : b * one ≤ nearestSteps x 1 := by
      calc
        b * one = nearestSteps (b * one) 1 := (nearestSteps_mul_one hb).symm
        _ ≤ nearestSteps x 1 := nearestSteps_mono (by decide) (Nat.le_of_not_lt hge)
    omega
  · intro h
    have hpoint := (isPoint_of_add hs hx hb.le h).nearestSteps_mul Nat.one_pos
    rw [Nat.mul_one] at hpoint
    rwa [hpoint]

/-- What has no sign is below a bound if its smallest steps are. -/
theorem Stands.below_iff {n b : Nat} {x : Binary64} (h : Stands false n x) (hb : b < 2 ^ 53) :
    x.below b 1 = true ↔ n < b * one := by
  cases h with
  | finite hn =>
    rw [below, steps, if_neg (by decide), hn, decide_eq_true_iff, Nat.cast_one,
      Int.mul_one, ← Nat.cast_mul, Nat.cast_lt]
  | infinite hn =>
    have hle : b * one ≤ 2 ^ 53 * one := Nat.mul_le_mul_right one hb.le
    rw [below]
    exact iff_of_false (by decide) (Nat.not_lt_of_le (Nat.le_trans hle hn))

/-- What has a sign is below all bounds. -/
theorem Stands.below_eq_true {n b : Nat} {x : Binary64} (h : Stands true n x) (hn : 0 < n) :
    x.below b 1 = true := by
  cases h with
  | finite hs =>
    rw [below, steps, if_pos rfl, hs, decide_eq_true_iff, Nat.cast_one,
      Int.mul_one, ← Nat.cast_mul]
    omega
  | infinite _ => rfl

theorem steps_eq_of_nonneg {n : Bool} {s u : Nat} (h : 0 ≤ steps n s u) :
    steps n s u = magnitude s u := by
  unfold steps at h ⊢
  split at h
  · rename_i hn
    rw [if_pos hn]
    omega
  · rename_i hn
    rw [if_neg hn]

theorem nearestSteps_pos {m : Nat} (h : 0 < m) : 0 < nearestSteps m 1 := by
  have hpoint : IsPoint 1 := ⟨1, 0, by decide, rfl⟩
  calc
    0 < 1 := Nat.one_pos
    _ = nearestSteps (1 * 1) 1 := (hpoint.nearestSteps_mul (by decide)).symm
    _ ≤ nearestSteps m 1 := nearestSteps_mono (by decide) h

/-- A whole number is taken off a value exactly as far as bounds can tell. -/
theorem below_addInt_eq_false_iff {v : Binary64} {q : Rat} (hv : v.Fits)
    (h : v.toRat? = some q) {b k : Nat} (hb : b < 2 ^ 53) : (v.addInt (-k)).below b 1 = false ↔
    (b : Rat) + k ≤ q := by
  obtain ⟨n, s, u, rfl, hq⟩ := toRat?_eq_some_iff.mp h
  cases hv with
  | finite hs _ =>
    have hsum : (finite n s u).addInt (-k) = ofSignedSteps (steps n s u + -k * one) 1 := rfl
    have hbound := mul_one_le_iff (i := b + k) hq
    rw [Int.cast_add, Int.cast_natCast, Int.cast_natCast, Int.add_mul] at hbound
    rw [← hbound, hsum, ofSignedSteps]
    rcases Int.lt_or_le (steps n s u + -k * one) 0 with hneg | hpos
    · -- what is left has a sign
      rw [decide_eq_true hneg]
      have hstands := ofSteps_stands true (steps n s u + -k * one).natAbs Nat.one_pos
      have hbelow : (b : Int) * one + k * one > steps n s u := by
        have hb0 : 0 ≤ (b : Int) * one := by exact_mod_cast Nat.zero_le (b * one)
        rw [Int.neg_mul] at hneg
        omega
      rw [hstands.below_eq_true (nearestSteps_pos (by omega))]
      exact iff_of_false (by decide) (Int.not_le.mpr hbelow)
    · rw [decide_eq_false (by omega)]
      have hstands := ofSteps_stands false (steps n s u + -k * one).natAbs Nat.one_pos
      have hk0 : 0 ≤ (k : Int) * one := by exact_mod_cast Nat.zero_le (k * one)
      rw [Int.neg_mul] at hpos hstands ⊢
      have hvalue : steps n s u = magnitude s u := steps_eq_of_nonneg (by omega)
      have hrest : (steps n s u + -(k * one)).natAbs + k * one = s * 2 ^ u := by
        have hmagnitude : magnitude s u = s * 2 ^ u := rfl
        rw [← hmagnitude]
        have hwhole : ((k * one : Nat) : Int) = k * one := Nat.cast_mul k one
        omega
      rw [← Bool.not_eq_true, hstands.below_iff hb, nearestSteps_lt_iff hs hrest hb, Nat.not_lt,
        ← Nat.cast_le (α := Int), Nat.cast_mul]
      omega

end Binary64

/-! ## Section 2 — scales -/

/-- The bounds of a scale rise. -/
def Rising (steps : List ComfortStep) : Prop := steps.Pairwise fun s s' => s.below ≤ s'.below

/-- The number of bounds that a temperature has reached, when something is taken off it. -/
def reached (steps : List ComfortStep) (offset : Nat) (q : Rat) : Nat :=
  steps.countP fun s => decide ((s.below : Rat) + offset ≤ q)

theorem reached_mono {offset offset' : Nat} {q q' : Rat} (h : q - offset ≤ q' - offset')
    (steps : List ComfortStep) : reached steps offset q ≤ reached steps offset' q' := by
  refine List.countP_mono_left fun s _ hs => decide_eq_true ?_
  linarith [of_decide_eq_true hs]

/-- Adding something to the bounds is taking it off the temperature. -/
theorem reached_sub (steps : List ComfortStep) (offset : Nat) (q : Rat) :
    reached steps 0 (q - offset) = reached steps offset q :=
  Nat.le_antisymm (reached_mono (by rw [Nat.cast_zero, sub_zero]) steps)
    (reached_mono (by rw [Nat.cast_zero, sub_zero]) steps)

/-- The first step that a value lies below comes after as many steps as there are bounds
that it has reached. -/
theorem tierAmong_index {value : Binary64} {offset : Nat} {q : Rat} {steps : List ComfortStep}
    (hrising : Rising steps)
    (hbelow : ∀ s ∈ steps, value.below s.below 1 = false ↔ (s.below : Rat) + offset ≤ q)
    (top : Color × ComfortIcon) (index : Nat) :
    (tierAmong value top index steps).index = index + reached steps offset q := by
  induction steps generalizing index with
  | nil => rfl
  | cons s rest ih =>
    obtain ⟨hfirst, hrest⟩ := List.pairwise_cons.mp hrising
    obtain ⟨hs, hbelow'⟩ := List.forall_mem_cons.mp hbelow
    unfold tierAmong
    split
    · rename_i hlt
      -- no later bound is lower
      have hnone : reached (s :: rest) offset q = 0 := by
        rw [reached, List.countP_eq_zero]
        intro s' hs' hle
        have hlow : s.below ≤ s'.below := by
          rcases List.mem_cons.mp hs' with rfl | hmem
          · exact Int.le_refl _
          · exact hfirst s' hmem
        have hcast : (s.below : Rat) ≤ s'.below := Int.cast_le.mpr hlow
        have hreached := hs.mpr (by linarith [of_decide_eq_true hle])
        rw [hlt] at hreached
        cases hreached
      rw [hnone, Nat.add_zero]
    · rename_i hge
      have hone : reached (s :: rest) offset q = reached rest offset q + 1 := by
        have hreached := hs.mp (Bool.eq_false_iff.mpr hge)
        unfold reached
        exact List.countP_cons_of_pos (decide_eq_true hreached)
      rw [ih hrest hbelow', hone]
      omega

/-- The tier of the step at a place, the steps counted from `index`. -/
def tierAt (top : Color × ComfortIcon) (index : Nat) (steps : List ComfortStep) (place : Nat) :
    ComfortTier :=
  match steps[place]? with
  | some s => ⟨index + place, s.color, s.icon⟩
  | none => ⟨index + place, top.1, top.2⟩

@[simp] theorem tierAt_index (top : Color × ComfortIcon) (index : Nat)
    (steps : List ComfortStep) (place : Nat) :
    (tierAt top index steps place).index = index + place := by
  unfold tierAt
  split
  · rfl
  · rfl

/-- The search ends at some place, whatever the value is, and takes all that it
gives from there. -/
theorem exists_tierAmong_eq (value : Binary64) (top : Color × ComfortIcon) (index : Nat)
    (steps : List ComfortStep) :
    ∃ place ≤ steps.length, tierAmong value top index steps = tierAt top index steps place := by
  induction steps generalizing index with
  | nil => exact ⟨0, Nat.le_refl _, rfl⟩
  | cons s rest ih =>
    unfold tierAmong
    split
    · exact ⟨0, Nat.zero_le _, rfl⟩
    · obtain ⟨place, hle, hplace⟩ := ih (index + 1)
      refine ⟨place + 1, Nat.succ_le_succ hle, ?_⟩
      rw [hplace, tierAt, tierAt, List.getElem?_cons_succ, Nat.add_right_comm, Nat.add_assoc]

/-! ## Section 3 — temperatures -/

namespace Domain

/-- The tier of a place on the scale of a domain. -/
def tier (d : Domain) (place : Nat) : ComfortTier := tierAt d.top 0 d.steps place

/-- What is taken off a temperature. -/
def offset (d : Domain) (seasonAdjusted : Bool) : Nat :=
  if seasonAdjusted then d.summerOffset else 0

theorem rising_steps (d : Domain) : Rising d.steps := by
  unfold Rising
  cases d with
  | indoor => decide
  | outdoor => decide

/-- Bounds are whole numbers that are not negative. -/
theorem exists_natCast_bound {d : Domain} {s : ComfortStep} (h : s ∈ d.steps) :
    ∃ b : Nat, b < 2 ^ 53 ∧ s.below = b := by
  have hbounds : ∀ s ∈ d.steps, 0 ≤ s.below ∧ s.below < 2 ^ 53 := by
    cases d with
    | indoor => decide
    | outdoor => decide
  obtain ⟨hpos, hlt⟩ := hbounds s h
  exact ⟨s.below.toNat, by omega, by omega⟩

end Domain

/-- What a temperature is looked up with. -/
def effective (v : Binary64) (d : Domain) (seasonAdjusted : Bool) : Binary64 :=
  if seasonAdjusted then v.addInt (-d.summerOffset) else v

/-- A temperature is looked up as if what summer takes off had been added to the bounds. -/
theorem below_effective {v : Binary64} {q : Rat} (hv : v.Fits)
    (hq : v.toRat? = some q) (d : Domain) (seasonAdjusted : Bool) {s : ComfortStep}
    (hs : s ∈ d.steps) :
    (effective v d seasonAdjusted).below s.below 1 = false ↔
    (s.below : Rat) + d.offset seasonAdjusted ≤ q := by
  obtain ⟨b, hb, hbound⟩ := Domain.exists_natCast_bound hs
  rw [hbound]
  unfold effective Domain.offset
  cases seasonAdjusted with
  | true =>
    rw [if_pos rfl, if_pos rfl, Int.cast_natCast]
    exact Binary64.below_addInt_eq_false_iff hv hq hb
  | false =>
    rw [if_neg (by decide), if_neg (by decide), Nat.cast_zero, add_zero]
    exact Binary64.below_eq_false_iff hq b

/-- Colour and icon of a tier are those of its place, whatever the value is. -/
theorem temperatureTier_eq_tier (v : Binary64) (d : Domain) (seasonAdjusted : Bool) :
    temperatureTier v d seasonAdjusted = d.tier (temperatureTier v d seasonAdjusted).index := by
  obtain ⟨place, -, hplace⟩ :=
    exists_tierAmong_eq (effective v d seasonAdjusted) d.top 0 d.steps
  have htier : temperatureTier v d seasonAdjusted = tierAt d.top 0 d.steps place := hplace
  rw [htier, tierAt_index, Nat.zero_add, Domain.tier]

/-- The number of bounds that a temperature has reached in a domain. -/
def Domain.reached (d : Domain) (seasonAdjusted : Bool) (q : Rat) : Nat :=
  HouseBoard.reached d.steps (d.offset seasonAdjusted) q

/-- The place of a temperature is the number of bounds that it has reached. -/
theorem temperatureTier_index {v : Binary64} {q : Rat} (hv : v.Fits)
    (hq : v.toRat? = some q) (d : Domain) (seasonAdjusted : Bool) :
    (temperatureTier v d seasonAdjusted).index = d.reached seasonAdjusted q := by
  have hindex := tierAmong_index d.rising_steps
    (fun s hs => below_effective hv hq d seasonAdjusted hs) d.top 0
  rw [Nat.zero_add] at hindex
  exact hindex

/-- The tier of a temperature is that of the number of bounds it has reached, where summer
raises the bounds; so it rises with the temperature, summer never raises it, and in summer a
temperature has the tier of one that is lower by what summer takes off.  Its colour and icon
follow from its place. -/
theorem temperatureTier_exact {v v' : Binary64} {q q' : Rat} (hv : v.Fits)
    (hq : v.toRat? = some q) (hv' : v'.Fits) (hq' : v'.toRat? = some q') (d : Domain)
    (seasonAdjusted : Bool) :
    (temperatureTier v d seasonAdjusted).index = d.reached seasonAdjusted q ∧
      (q ≤ q' → (temperatureTier v d seasonAdjusted).index ≤
        (temperatureTier v' d seasonAdjusted).index) ∧
      (temperatureTier v d true).index ≤ (temperatureTier v d false).index ∧
      temperatureTier v d true = d.tier (d.reached false (q - d.summerOffset)) ∧
      (q' = q - d.summerOffset → temperatureTier v d true = temperatureTier v' d false) ∧
      ∀ w, temperatureTier w d seasonAdjusted =
        d.tier (temperatureTier w d seasonAdjusted).index := by
  have hshift : d.reached false (q - d.summerOffset) = d.reached true q := reached_sub _ _ _
  have hadjusted : temperatureTier v d true =
      d.tier (d.reached false (q - d.summerOffset)) := by
    rw [temperatureTier_eq_tier, temperatureTier_index hv hq, hshift]
  refine ⟨temperatureTier_index hv hq d seasonAdjusted, ?_, ?_, hadjusted, ?_, ?_⟩
  · intro hle
    rw [temperatureTier_index hv hq, temperatureTier_index hv' hq']
    exact reached_mono (sub_le_sub_right hle _) d.steps
  · rw [temperatureTier_index hv hq, temperatureTier_index hv hq]
    refine reached_mono ?_ d.steps
    unfold Domain.offset
    rw [if_pos rfl, if_neg (by decide), Nat.cast_zero]
    exact sub_le_sub_left (Nat.cast_nonneg _) q
  · rintro rfl
    rw [hadjusted, temperatureTier_eq_tier v', temperatureTier_index hv' hq']
  · exact fun w => temperatureTier_eq_tier w d seasonAdjusted

/-- Twenty-two degrees indoors are as comfortable in summer as nineteen are otherwise. -/
theorem temperatureTier_indoor_summer :
    (Domain.reached .indoor true 22 = 2 ∧
      (temperatureTier (.ofNat 22) .indoor true).index = 2) ∧
      temperatureTier (.ofNat 22) .indoor true = temperatureTier (.ofNat 19) .indoor false := by
  have hwarm : (Binary64.ofNat 22).toRat? = some (22 : Rat) := by
    rw [Binary64.toRat?_ofNat (by decide), Nat.cast_ofNat]
  have hcool : (Binary64.ofNat 19).toRat? = some (19 : Rat) := by
    rw [Binary64.toRat?_ofNat (by decide), Nat.cast_ofNat]
  have hreached : Domain.reached .indoor true 22 = 2 := by decide +kernel
  obtain ⟨hindex, -, -, -, hsame, -⟩ := temperatureTier_exact (Binary64.fits_ofNat 22) hwarm
    (Binary64.fits_ofNat 19) hcool .indoor true
  exact ⟨⟨hreached, hindex.trans hreached⟩, hsame (by norm_num [Domain.summerOffset])⟩

end HouseBoard
