/-
HouseBoard.Proofs.Blends — the blend of two colours goes steadily from one to the other.

A weight counts by the smallest steps that remain of it between zero and one (Section 1).
Section 2 follows a channel through the product, the sum and both roundings: each of them keeps
the order of numbers and leaves whole numbers alone, so the channel moves from one end to the
other and never leaves what lies between.  Section 3 adds up what the roundings can be off by.
Section 4 says all this of colours, and of the colour of a humidity.
-/
import Mathlib.Algebra.Order.Group.MinMax
import Mathlib.Tactic.Linarith
import HouseBoard.Display.Color
import HouseBoard.Proofs.Rounding

namespace HouseBoard

namespace Binary64

/-! ## Section 1 — weights -/

/-- The smallest steps that remain of a value between zero and one. -/
def unitSteps : Binary64 → Nat
  | .nan => 0
  | .infinite n => if n then 0 else one
  | .finite n s u => if n then 0 else min one (magnitude s u)

theorem unitSteps_le (x : Binary64) : x.unitSteps ≤ one := by
  unfold unitSteps
  split
  · exact Nat.zero_le _
  · split
    · exact Nat.zero_le _
    · exact Nat.le_refl _
  · split
    · exact Nat.zero_le _
    · exact Nat.min_le_left _ _

/-- One is the value of as many smallest steps as it has. -/
theorem exists_ofNat_one : ∃ s u, ofNat 1 = .finite false s u ∧ magnitude s u = one := by
  obtain ⟨s, u, hvalue, hsteps⟩ := exists_ofNat (k := 1) (by decide)
  exact ⟨s, u, hvalue, by rw [hsteps, Nat.one_mul]⟩

theorem clampUnit_infinite : (infinite false).clampUnit = ofNat 1 := by
  unfold clampUnit
  dsimp only
  rw [if_neg (by decide)]

theorem clampUnit_finite (s u : Nat) :
    (finite false s u).clampUnit = if one < magnitude s u then ofNat 1
      else .finite false s u := by
  unfold clampUnit
  dsimp only
  rw [if_neg (by decide)]

theorem unitSteps_infinite : (infinite false).unitSteps = one := by
  unfold unitSteps
  dsimp only
  rw [if_neg (by decide)]

theorem unitSteps_finite (s u : Nat) :
    (finite false s u).unitSteps = min one (magnitude s u) := by
  unfold unitSteps
  dsimp only
  rw [if_neg (by decide)]

/-- A value brought between zero and one has the smallest steps that remain of it. -/
theorem clampUnit_eq (x : Binary64) :
    ∃ s u, x.clampUnit = .finite false s u ∧ magnitude s u = x.unitSteps := by
  have hzero : ∃ s u, zero = .finite false s u ∧ magnitude s u = 0 :=
    ⟨0, 0, rfl, Nat.zero_mul _⟩
  cases x with
  | nan => exact hzero
  | infinite n =>
    cases n with
    | true => exact hzero
    | false =>
      rw [clampUnit_infinite, unitSteps_infinite]
      exact exists_ofNat_one
  | finite n s u =>
    cases n with
    | true => exact hzero
    | false =>
      rw [clampUnit_finite, unitSteps_finite]
      split_ifs with hbeyond
      · rw [Nat.min_eq_left (Nat.le_of_lt hbeyond)]
        exact exists_ofNat_one
      · exact ⟨s, u, rfl, (Nat.min_eq_right (Nat.le_of_not_lt hbeyond)).symm⟩

/-- The smallest steps that remain of what a number is rounded to. -/
theorem Stands.unitSteps_eq {negative : Bool} {n : Nat} {x : Binary64}
    (h : Stands negative n x) : x.unitSteps = if negative then 0 else min one n := by
  cases h with
  | finite hn => rw [unitSteps, hn]
  | infinite hn =>
    have hone : one ≤ n := Nat.le_trans (Nat.le_mul_of_pos_left _ (by decide)) hn
    rw [unitSteps, Nat.min_eq_left hone]

/-- The part of a number that remains between zero and one. -/
theorem cast_unitSteps {x : Binary64} {q : Rat} (h : x.toRat? = some q) :
    (x.unitSteps : Rat) = max 0 (min 1 q) * one := by
  obtain ⟨n, s, u, rfl, hq⟩ := toRat?_eq_some_iff.mp h
  have hone : (0 : Rat) < one := Nat.cast_pos.mpr one_pos
  have hunit : unitSteps (.finite n s u) = if n then 0 else min one (magnitude s u) := rfl
  rw [hunit]
  unfold steps at hq
  generalize magnitude s u = m at hq
  generalize one = o at hq hone
  have hm : (0 : Rat) ≤ m := Nat.cast_nonneg m
  cases n with
  | true =>
    rw [if_pos rfl, Int.cast_neg, Int.cast_natCast] at hq
    have hneg : q ≤ 0 := nonpos_of_mul_nonpos_left (by linarith) hone
    rw [if_pos rfl, max_eq_left (le_trans (min_le_right _ _) hneg), zero_mul, Nat.cast_zero]
  | false =>
    rw [if_neg (by decide), Int.cast_natCast] at hq
    have hpos : 0 ≤ q := nonneg_of_mul_nonneg_left (by linarith) hone
    rw [if_neg (by decide), max_eq_right (le_min zero_le_one hpos),
      min_mul_of_nonneg _ _ hone.le, hq, one_mul, Nat.cast_min]

/-! ## Section 2 — channels -/

theorem nearestWhole_mono {m m' : Nat} (h : m ≤ m') : nearestWhole m ≤ nearestWhole m' :=
  Nat.div_le_div_right (by omega)

theorem nearestWhole_mul_one (k : Nat) : nearestWhole (k * one) = k := by
  have hone := one_pos
  unfold nearestWhole
  rw [Nat.div_eq_iff (by omega), ← Nat.mul_assoc, ← Nat.mul_assoc]
  constructor
  · rw [Nat.mul_comm k 2]
    omega
  · rw [Nat.mul_comm k 2]
    omega

/-- The nearest whole number is half a one away at most. -/
theorem nearestWhole_near (m : Nat) :
    2 * (nearestWhole m * one) ≤ 2 * m + one ∧ 2 * m ≤ 2 * (nearestWhole m * one) + one := by
  have hone := one_pos
  have hrem := Nat.mod_lt (2 * m + one) (show 0 < 2 * one by omega)
  have hwhole : 2 * (nearestWhole m * one) + (2 * m + one) % (2 * one) = 2 * m + one := by
    rw [nearestWhole, Nat.mul_left_comm, Nat.mul_comm _ (2 * one)]
    exact Nat.div_add_mod _ _
  omega

end Binary64

/-- On the way from `a` to `b` one goes from `c` to `c'`, whether that rises or falls. -/
def Toward {α : Type} [LE α] (a b c c' : α) : Prop :=
  (a ≤ c ∧ c ≤ c' ∧ c' ≤ b) ∨ (b ≤ c' ∧ c' ≤ c ∧ c ≤ a)

namespace Toward

variable {a b c c' : Nat}

/-- What keeps the order keeps the way. -/
theorem map {f : Nat → Nat} (hf : ∀ {n n' : Nat}, n ≤ n' → f n ≤ f n') (h : Toward a b c c') :
    Toward (f a) (f b) (f c) (f c') :=
  h.imp (fun ⟨hstart, hstep, hfinish⟩ => ⟨hf hstart, hf hstep, hf hfinish⟩)
    fun ⟨hfinish, hstep, hstart⟩ => ⟨hf hfinish, hf hstep, hf hstart⟩

/-- Nothing on the way is beyond both ends. -/
theorem le {n : Nat} (h : Toward a b c c') (ha : a ≤ n) (hb : b ≤ n) : c ≤ n := by
  rcases h with ⟨-, hstep, hfinish⟩ | ⟨-, -, hstart⟩
  · exact hstep.trans (hfinish.trans hb)
  · exact hstart.trans ha

end Toward

namespace Color

open Binary64

/-- The sum that is rounded, in smallest steps: what a weight of `m` of them covers of the way
from `a` to `b`. -/
def travelled (a b m : Nat) : Nat :=
  if a ≤ b then a * one + nearestSteps (m * (b - a)) 1
  else a * one - nearestSteps (m * (a - b)) 1

/-- The smallest steps of a channel on its way from `a` to `b`. -/
def channelSteps (a b m : Nat) : Nat := nearestSteps (travelled a b m) 1

/-- The whole number of a channel. -/
def channel (a b m : Nat) : Nat := nearestWhole (channelSteps a b m)

section

variable {a b m m' : Nat}

/-- The part of a distance that a weight covers. -/
theorem nearestSteps_mul_le {d : Nat} (hd : d ≤ 255) (hm : m ≤ one) :
    nearestSteps (m * d) 1 ≤ d * one := by
  rw [← nearestSteps_mul_one (by omega : d < 2 ^ 53), Nat.mul_comm d]
  exact nearestSteps_mono (by decide) (Nat.mul_le_mul_right d hm)

theorem travelled_toward (ha : a ≤ 255) (hb : b ≤ 255) (h : m ≤ m') (hm : m' ≤ one) :
    Toward (a * one) (b * one) (travelled a b m) (travelled a b m') := by
  have hpart (d : Nat) : nearestSteps (m * d) 1 ≤ nearestSteps (m' * d) 1 :=
    nearestSteps_mono (by decide) (Nat.mul_le_mul_right d h)
  unfold travelled
  rcases Nat.lt_or_ge b a with hba | hab
  · have hdistance : nearestSteps (m' * (a - b)) 1 ≤ (a - b) * one :=
      nearestSteps_mul_le (by omega) hm
    have hends : b * one + (a - b) * one = a * one := by
      rw [← Nat.add_mul, Nat.add_sub_cancel' hba.le]
    have hloss := hpart (a - b)
    rw [if_neg (by omega), if_neg (by omega)]
    exact .inr ⟨by omega, by omega, by omega⟩
  · have hdistance : nearestSteps (m' * (b - a)) 1 ≤ (b - a) * one :=
      nearestSteps_mul_le (by omega) hm
    have hends : a * one + (b - a) * one = b * one := by
      rw [← Nat.add_mul, Nat.add_sub_cancel' hab]
    have hgain := hpart (b - a)
    rw [if_pos hab, if_pos hab]
    exact .inl ⟨by omega, by omega, by omega⟩

/-- Rounding the sum leaves the ends alone. -/
theorem channelSteps_toward (ha : a ≤ 255) (hb : b ≤ 255) (h : m ≤ m') (hm : m' ≤ one) :
    Toward (a * one) (b * one) (channelSteps a b m) (channelSteps a b m') := by
  have hway := (travelled_toward ha hb h hm).map (f := fun n => nearestSteps n 1)
    (nearestSteps_mono (by decide))
  rwa [nearestSteps_mul_one (by omega), nearestSteps_mul_one (by omega)] at hway

/-- So does rounding to whole numbers. -/
theorem channel_toward (ha : a ≤ 255) (hb : b ≤ 255) (h : m ≤ m') (hm : m' ≤ one) :
    Toward a b (channel a b m) (channel a b m') := by
  have hway := (channelSteps_toward ha hb h hm).map nearestWhole_mono
  rwa [nearestWhole_mul_one, nearestWhole_mul_one] at hway

/-- A channel stays within a byte. -/
theorem channel_le (ha : a ≤ 255) (hb : b ≤ 255) (hm : m ≤ one) : channel a b m ≤ 255 :=
  (channel_toward ha hb (Nat.le_refl m) hm).le ha hb

/-- Without weight a channel is at its beginning. -/
theorem channelSteps_zero (ha : a ≤ 255) : channelSteps a b 0 = a * one := by
  unfold channelSteps travelled
  rw [Nat.zero_mul, Nat.zero_mul, nearestSteps_zero (by decide), Nat.add_zero,
    Nat.sub_zero, ite_self, nearestSteps_mul_one (by omega)]

/-- With all of it a channel is at its end. -/
theorem channelSteps_one (ha : a ≤ 255) (hb : b ≤ 255) : channelSteps a b one = b * one := by
  unfold channelSteps travelled
  rw [Nat.mul_comm one, Nat.mul_comm one, nearestSteps_mul_one (by omega),
    nearestSteps_mul_one (by omega)]
  split
  · rw [← Nat.add_mul, Nat.add_sub_cancel' ‹_›, nearestSteps_mul_one (by omega)]
  · rw [← Nat.sub_mul, Nat.sub_sub_self (by omega), nearestSteps_mul_one (by omega)]

/-- What is rounded last has the smallest steps of the channel. -/
theorem blend_stands (ha : a ≤ 255) (hb : b ≤ 255) {s u : Nat} (hm : magnitude s u ≤ one) :
    Stands false (channelSteps a b (magnitude s u))
      (((Binary64.finite false s u).mulInt ((b : Int) - a)).addInt a) := by
  have hone := one_pos
  have hproduct {d : Nat} (negative : Bool) (hd : d ≤ 255) : ∃ s' u',
      ofSteps negative (magnitude s u * d) 1 = .finite negative s' u' ∧
        magnitude s' u' = nearestSteps (magnitude s u * d) 1 := by
    refine (ofSteps_stands negative _ (by decide)).exists_finite
      (Nat.lt_of_le_of_lt (nearestSteps_mul_le hd hm) ?_)
    exact Nat.mul_lt_mul_of_pos_right (by omega) hone
  have hsum {x : Int} {n : Nat} (hx : x = n) :
      Stands false (nearestSteps n 1) (ofSignedSteps x 1) := by
    rw [hx, ofSignedSteps, Int.natAbs_natCast, decide_eq_false (by omega)]
    exact ofSteps_stands false n (by decide)
  have hvalue : (Binary64.finite false s u).mulInt ((b : Int) - a) =
      ofSteps (false != decide ((b : Int) - a < 0))
        (magnitude s u * ((b : Int) - a).natAbs) 1 := by
    unfold mulInt
    rfl
  have hadd (negative : Bool) (s' u' : Nat) : (Binary64.finite negative s' u').addInt a =
      ofSignedSteps (steps negative s' u' + (a : Int) * one) 1 := by
    unfold addInt
    rfl
  unfold channelSteps travelled
  rw [hvalue]
  split
  · rename_i hab
    obtain ⟨s', u', hpart, hsteps⟩ := hproduct (d := b - a) false (by omega)
    have habs : ((b : Int) - a).natAbs = b - a := by omega
    have hsign : (false != decide ((b : Int) - a < 0)) = false := by simp [hab]
    rw [habs, hsign, hpart, hadd]
    refine hsum ?_
    rw [steps, if_neg (by decide), hsteps, Nat.cast_add, Nat.cast_mul, Int.add_comm]
  · rename_i hba
    obtain ⟨s', u', hpart, hsteps⟩ := hproduct (d := a - b) true (by omega)
    have habs : ((b : Int) - a).natAbs = a - b := by omega
    have hsign : (false != decide ((b : Int) - a < 0)) = true := by simp; omega
    have hdistance : nearestSteps (magnitude s u * (a - b)) 1 ≤ a * one :=
      Nat.le_trans (nearestSteps_mul_le (by omega) hm)
        (Nat.mul_le_mul_right one (Nat.sub_le a b))
    rw [habs, hsign, hpart, hadd]
    refine hsum ?_
    rw [steps, if_pos rfl, hsteps, Nat.cast_sub hdistance, Nat.cast_mul]
    omega

/-- What is rounded last has the steps of the channel, and is far from infinite. -/
theorem exists_blend (ha : a ≤ 255) (hb : b ≤ 255) (w : Binary64) : ∃ s u,
    (w.clampUnit.mulInt ((b : Int) - a)).addInt a = .finite false s u ∧
      magnitude s u = channelSteps a b w.unitSteps := by
  obtain ⟨s, u, hclamp, hsteps⟩ := clampUnit_eq w
  have hunit := unitSteps_le w
  have hstands := blend_stands ha hb (hsteps.trans_le hunit)
  rw [hsteps] at hstands
  rw [hclamp]
  have hbyte : channelSteps a b w.unitSteps ≤ 255 * one :=
    (channelSteps_toward ha hb (Nat.le_refl _) hunit).le (Nat.mul_le_mul_right one ha)
      (Nat.mul_le_mul_right one hb)
  exact hstands.exists_finite
    (Nat.lt_of_le_of_lt hbyte ((Nat.mul_lt_mul_right Binary64.one_pos).mpr (by decide)))

/-- The bounds of a byte never act: what they are applied to is the whole number of the
channel already. -/
theorem round_blend (ha : a ≤ 255) (hb : b ≤ 255) (w : Binary64) :
    ((w.clampUnit.mulInt ((b : Int) - a)).addInt a).round.toRat? =
      some (channel a b w.unitSteps : Rat) := by
  obtain ⟨s, u, hvalue, hsteps⟩ := exists_blend ha hb w
  have hround : (finite false s u).round = Binary64.ofNat (nearestWhole (magnitude s u)) := rfl
  have hle := channel_le ha hb (unitSteps_le w)
  rw [hvalue, hround, hsteps]
  exact toRat?_ofNat (Nat.lt_of_le_of_lt hle (by decide))

end

/-- The byte that a channel is rounded to. -/
theorem mix_clampUnit (a b : UInt8) (w : Binary64) :
    mix a b w.clampUnit = UInt8.ofNat (channel a.toNat b.toNat w.unitSteps) := by
  have ha := a.toNat_lt
  have hb := b.toNat_lt
  obtain ⟨s, u, hvalue, hsteps⟩ :=
    exists_blend (a := a.toNat) (b := b.toNat) (by omega) (by omega) w
  have hle := channel_le (a := a.toNat) (b := b.toNat) (by omega) (by omega) (unitSteps_le w)
  have hwithin : (finite false s u).roundWithin 0 255 =
      max 0 (min 255 (nearestWhole (magnitude s u) : Int)) := by
    unfold roundWithin
    dsimp only
    rw [if_neg (by decide)]
  unfold mix
  dsimp only
  rw [hvalue, hwithin, hsteps]
  change UInt8.ofNat (max 0 (min 255 (channel a.toNat b.toNat w.unitSteps : Int))).toNat = _
  rw [min_eq_right (by omega), max_eq_right (by omega), Int.toNat_natCast]

theorem mix_toNat (a b : UInt8) (w : Binary64) :
    (mix a b w.clampUnit).toNat = channel a.toNat b.toNat w.unitSteps := by
  have ha := a.toNat_lt
  have hb := b.toNat_lt
  have hle := channel_le (a := a.toNat) (b := b.toNat) (by omega) (by omega) (unitSteps_le w)
  rw [mix_clampUnit, UInt8.toNat_ofNat', Nat.mod_eq_of_lt (by omega)]

/-! ## Section 3 — exact blends -/

section

variable {a b m : Nat}

/-- Rounding a number that is no larger than a byte. -/
theorem abs_nearestSteps_sub_byte {n : Nat} (h : n ≤ 255 * one) :
    |(nearestSteps n 1 : Rat) - n| ≤ 255 * one / 2 ^ 53 := by
  have hnear := abs_nearestSteps_sub_le Nat.one_pos (by decide)
    (show n ≤ 255 * one * 1 by rwa [Nat.mul_one])
  rwa [Nat.cast_one, div_one] at hnear

theorem travelled_near (ha : a ≤ 255) (hb : b ≤ 255) (hm : m ≤ one) :
    |(travelled a b m : Rat) - (a * one + (b - a) * m)| ≤ 255 * one / 2 ^ 53 := by
  have hpart {d : Nat} (hd : d ≤ 255) : |(nearestSteps (m * d) 1 : Rat) - m * d| ≤
      255 * one / 2 ^ 53 := by
    rw [← Nat.cast_mul]
    exact abs_nearestSteps_sub_byte (by rw [Nat.mul_comm]; exact Nat.mul_le_mul hd hm)
  unfold travelled
  rcases Nat.lt_or_ge b a with hba | hab
  · have hnear := hpart (d := a - b) (by omega)
    have hdistance : nearestSteps (m * (a - b)) 1 ≤ a * one :=
      Nat.le_trans (nearestSteps_mul_le (by omega) hm)
        (Nat.mul_le_mul_right one (Nat.sub_le a b))
    rw [if_neg (by omega), Nat.cast_sub hdistance, Nat.cast_mul, abs_le]
    rw [Nat.cast_sub hba.le, abs_le] at hnear
    constructor <;> linarith
  · have hnear := hpart (d := b - a) (by omega)
    rw [if_pos hab, Nat.cast_add, Nat.cast_mul, abs_le]
    rw [Nat.cast_sub hab, abs_le] at hnear
    constructor <;> linarith

theorem channelSteps_near (ha : a ≤ 255) (hb : b ≤ 255) (hm : m ≤ one) :
    |(channelSteps a b m : Rat) - (a * one + (b - a) * m)| ≤ 510 * one / 2 ^ 53 := by
  have hsum := travelled_near ha hb hm
  have hbyte : travelled a b m ≤ 255 * one :=
    (travelled_toward ha hb (Nat.le_refl m) hm).le (Nat.mul_le_mul_right one ha)
      (Nat.mul_le_mul_right one hb)
  have htotal : |(channelSteps a b m : Rat) - travelled a b m| ≤ 255 * one / 2 ^ 53 :=
    abs_nearestSteps_sub_byte hbyte
  rw [abs_le] at hsum htotal ⊢
  constructor <;> linarith

/-- A channel is half a unit away from the exact blend at most, but for the rounding of the
weight and of the sum. -/
theorem channel_near (ha : a ≤ 255) (hb : b ≤ 255) (hm : m ≤ one) :
    |(channel a b m : Rat) - (a + (b - a) * (m / one))| ≤ 1 / 2 + 1 / 2 ^ 44 := by
  have hone : (0 : Rat) < one := Nat.cast_pos.mpr Binary64.one_pos
  have hsteps := channelSteps_near ha hb hm
  obtain ⟨hup, hdown⟩ := nearestWhole_near (channelSteps a b m)
  unfold channel
  have hup' : 2 * ((nearestWhole (channelSteps a b m) : Rat) * one) ≤
      2 * channelSteps a b m + one := by
    exact_mod_cast hup
  have hdown' : 2 * (channelSteps a b m : Rat) ≤
      2 * (nearestWhole (channelSteps a b m) * one) + one := by
    exact_mod_cast hdown
  have hweight : (m : Rat) = m / one * one := (div_mul_cancel₀ _ hone.ne').symm
  rw [hweight] at hsteps
  generalize (m : Rat) / one = t at hsteps ⊢
  generalize (nearestWhole (channelSteps a b m) : Rat) = c at hup' hdown' ⊢
  generalize (channelSteps a b m : Rat) = x at hsteps hup' hdown'
  generalize (one : Rat) = o at hone hsteps hup' hdown'
  rw [abs_le] at hsteps ⊢
  constructor
  · refine le_of_mul_le_mul_right ?_ hone
    linarith
  · refine le_of_mul_le_mul_right ?_ hone
    linarith

end

/-! ## Section 4 — colours -/

/-- A channel is as near to the exact blend as a byte can be, but for the rounding of the
weight and of the sum. -/
def Close (a b : UInt8) (t : Rat) (c : UInt8) : Prop :=
  |(c.toNat : Rat) - (a.toNat + ((b.toNat : Rat) - a.toNat) * t)| ≤ 1 / 2 + 1 / 2 ^ 43

/-- A statement about each channel of a colour. -/
structure EachChannel (p : (Color → UInt8) → Prop) : Prop where
  r : p Color.r
  g : p Color.g
  b : p Color.b

/-- A family of colours blends `A` into `B`: each channel moves from the one to the other as the
value grows, it is at the beginning for all that is not above zero and at the end from `full`
on, and in between it is as near to the exact blend as can be. -/
structure Blends (A B : Color) (full : Rat) (f : Binary64 → Color) : Prop where
  steady : ∀ {x x' : Binary64} {q q' : Rat}, x.toRat? = some q → x'.toRat? = some q' → q ≤ q' →
    EachChannel fun c => Toward (c A) (c B) (c (f x)) (c (f x'))
  near : ∀ {x : Binary64} {q : Rat}, x.toRat? = some q → 0 ≤ q → q ≤ full →
    EachChannel fun c => Close (c A) (c B) (q / full) (c (f x))
  start : ∀ {x : Binary64} {q : Rat}, x.toRat? = some q → q ≤ 0 → f x = A
  finish : ∀ {x : Binary64} {q : Rat}, x.toRat? = some q → full ≤ q → f x = B
  nan : f .nan = A
  infinite : ∀ negative, f (.infinite negative) = if negative then A else B

/-- A way to take the weight of a value, that is all of it from `full` on. -/
structure Weighs (full : Rat) (w : Binary64 → Binary64) : Prop where
  mono : ∀ {x x' : Binary64} {q q' : Rat}, x.toRat? = some q → x'.toRat? = some q' → q ≤ q' →
    (w x).unitSteps ≤ (w x').unitSteps
  near : ∀ {x : Binary64} {q : Rat}, x.toRat? = some q → 0 ≤ q → q ≤ full →
    |((w x).unitSteps : Rat) / one - q / full| ≤ 1 / 2 ^ 53
  none : ∀ {x : Binary64} {q : Rat}, x.toRat? = some q → q ≤ 0 → (w x).unitSteps = 0
  all : ∀ {x : Binary64} {q : Rat}, x.toRat? = some q → full ≤ q → (w x).unitSteps = one
  nan : (w .nan).unitSteps = 0
  infinite : ∀ negative, (w (.infinite negative)).unitSteps = if negative then 0 else one

section

variable {a b : UInt8} {w w' : Binary64}

theorem mix_toward (h : w.unitSteps ≤ w'.unitSteps) :
    Toward a b (mix a b w.clampUnit) (mix a b w'.clampUnit) := by
  have ha := a.toNat_lt
  have hb := b.toNat_lt
  unfold Toward
  simp only [UInt8.le_iff_toNat_le, mix_toNat]
  exact channel_toward (by omega) (by omega) h (unitSteps_le w')

theorem mix_start (h : w.unitSteps = 0) : mix a b w.clampUnit = a := by
  have ha := a.toNat_lt
  rw [mix_clampUnit, h, channel, channelSteps_zero (by omega), nearestWhole_mul_one,
    UInt8.ofNat_toNat]

theorem mix_finish (h : w.unitSteps = one) : mix a b w.clampUnit = b := by
  have ha := a.toNat_lt
  have hb := b.toNat_lt
  rw [mix_clampUnit, h, channel, channelSteps_one (by omega) (by omega), nearestWhole_mul_one,
    UInt8.ofNat_toNat]

/-- Between two equal ends there is no way. -/
theorem mix_self (a : UInt8) (w : Binary64) : mix a a w.clampUnit = a := by
  rcases mix_toward (a := a) (b := a)
    (Nat.le_refl w.unitSteps) with ⟨hge, -, hle⟩ | ⟨hge, -, hle⟩
  · exact UInt8.le_antisymm hle hge
  · exact UInt8.le_antisymm hle hge

theorem mix_close {t : Rat} (h : |(w.unitSteps : Rat) / one - t| ≤ 1 / 2 ^ 53) :
    Close a b t (mix a b w.clampUnit) := by
  have ha := a.toNat_lt
  have hb := b.toNat_lt
  have hnear := channel_near (a := a.toNat) (b := b.toNat) (by omega) (by omega)
    (unitSteps_le w)
  have hspan : |(b.toNat : Rat) - a.toNat| ≤ 255 := by
    have ha' : (a.toNat : Rat) ≤ 255 := by exact_mod_cast Nat.le_of_lt_succ ha
    have hb' : (b.toNat : Rat) ≤ 255 := by exact_mod_cast Nat.le_of_lt_succ hb
    rw [abs_le]
    constructor <;>
      linarith [Nat.cast_nonneg (α := Rat) a.toNat, Nat.cast_nonneg (α := Rat) b.toNat]
  unfold Close
  rw [mix_toNat]
  generalize (w.unitSteps : Rat) / one = t' at h hnear
  generalize (b.toNat : Rat) - a.toNat = d at hnear hspan ⊢
  have hweight : |d * (t' - t)| ≤ 255 * (1 / 2 ^ 53) := by
    rw [abs_mul]
    exact mul_le_mul hspan h (abs_nonneg _) (by norm_num)
  rw [mul_sub] at hweight
  rw [abs_le] at hnear hweight ⊢
  constructor <;> linarith

end

theorem interpolate_start (A B : Color) {w : Binary64} (h : w.unitSteps = 0) :
    interpolate A B w = A := by
  unfold interpolate
  dsimp only
  rw [mix_start h, mix_start h, mix_start h]

theorem interpolate_finish (A B : Color) {w : Binary64} (h : w.unitSteps = one) :
    interpolate A B w = B := by
  unfold interpolate
  dsimp only
  rw [mix_finish h, mix_finish h, mix_finish h]

theorem interpolate_self (A : Color) (w : Binary64) : interpolate A A w = A := by
  unfold interpolate
  dsimp only
  rw [mix_self, mix_self, mix_self]

/-- Whatever the weight of a value, the colours of all values are a blend. -/
theorem Weighs.blends {full : Rat} {w : Binary64 → Binary64} (h : Weighs full w) (A B : Color) :
    Blends A B full fun x => interpolate A B (w x) where
  steady hx hx' hle :=
    ⟨mix_toward (h.mono hx hx' hle), mix_toward (h.mono hx hx' hle),
      mix_toward (h.mono hx hx' hle)⟩
  near hx hpos hle :=
    ⟨mix_close (h.near hx hpos hle), mix_close (h.near hx hpos hle),
      mix_close (h.near hx hpos hle)⟩
  start hx hle := interpolate_start A B (h.none hx hle)
  finish hx hle := interpolate_finish A B (h.all hx hle)
  nan := interpolate_start A B h.nan
  infinite negative := by
    have hweight := h.infinite negative
    cases negative with
    | true =>
      rw [if_pos rfl] at hweight
      exact interpolate_start A B hweight
    | false =>
      rw [if_neg (by decide)] at hweight
      exact interpolate_finish A B hweight

/-- A weight counts as it is. -/
theorem weighs_id : Weighs 1 id where
  mono hx hx' hle := by
    rw [← Nat.cast_le (α := Rat), id, id, cast_unitSteps hx, cast_unitSteps hx']
    exact mul_le_mul_of_nonneg_right (max_le_max le_rfl (min_le_min le_rfl hle))
      (Nat.cast_nonneg _)
  near hx hpos hle := by
    have hone : (one : Rat) ≠ 0 := Nat.cast_ne_zero.mpr (Nat.ne_of_gt Binary64.one_pos)
    rw [id, cast_unitSteps hx, min_eq_right hle, max_eq_right hpos,
      mul_div_cancel_right₀ _ hone, div_one, sub_self, abs_zero]
    norm_num
  none hx hle := by
    rw [← Nat.cast_inj (R := Rat), id, cast_unitSteps hx,
      max_eq_left (le_trans (min_le_right _ _) hle), zero_mul, Nat.cast_zero]
  all hx hle := by
    rw [← Nat.cast_inj (R := Rat), id, cast_unitSteps hx, min_eq_left hle,
      max_eq_right zero_le_one, one_mul]
  nan := rfl
  infinite negative := rfl

/-- What remains of a hundredth of a value. -/
theorem exists_unitSteps_scale {x : Binary64} {q : Rat} (h : x.toRat? = some q) :
    ∃ m : Nat, (m : Rat) = max 0 q * one ∧ (x.scale 1 100).unitSteps =
      min one (nearestSteps m 100) := by
  obtain ⟨n, s, u, rfl, hq⟩ := toRat?_eq_some_iff.mp h
  have hone : (0 : Rat) < one := Nat.cast_pos.mpr Binary64.one_pos
  have hunit : ((finite n s u).scale 1 100).unitSteps = _ :=
    (ofSteps_stands n _ (by decide)).unitSteps_eq
  rw [Nat.mul_one] at hunit
  rw [hunit]
  unfold steps at hq
  generalize magnitude s u = m at hq
  have hm : (0 : Rat) ≤ m := Nat.cast_nonneg m
  cases n with
  | true =>
    rw [if_pos rfl, Int.cast_neg, Int.cast_natCast] at hq
    have hneg : q ≤ 0 := nonpos_of_mul_nonpos_left (by linarith) hone
    refine ⟨0, by rw [max_eq_left hneg, zero_mul, Nat.cast_zero], ?_⟩
    rw [if_pos rfl, nearestSteps_zero (by decide), Nat.min_zero]
  | false =>
    rw [if_neg (by decide), Int.cast_natCast] at hq
    have hpos : 0 ≤ q := nonneg_of_mul_nonneg_left (by linarith) hone
    exact ⟨m, by rw [max_eq_right hpos, hq], if_neg (by decide)⟩

/-- A humidity in percent weighs a hundredth of it. -/
theorem weighs_percent : Weighs 100 (·.scale 1 100) where
  mono hx hx' hle := by
    obtain ⟨m, hm, hunit⟩ := exists_unitSteps_scale hx
    obtain ⟨m', hm', hunit'⟩ := exists_unitSteps_scale hx'
    have hsteps : m ≤ m' := by
      rw [← Nat.cast_le (α := Rat), hm, hm']
      exact mul_le_mul_of_nonneg_right (max_le_max le_rfl hle) (Nat.cast_nonneg _)
    rw [hunit, hunit']
    exact min_le_min le_rfl (nearestSteps_mono (by decide) hsteps)
  near {x q} hx hpos hle := by
    obtain ⟨m, hm, hunit⟩ := exists_unitSteps_scale hx
    have hone : (0 : Rat) < one := Nat.cast_pos.mpr Binary64.one_pos
    rw [max_eq_right hpos] at hm
    have hmle : m ≤ 1 * one * 100 := by
      rw [← Nat.cast_le (α := Rat), hm]
      push_cast
      rw [one_mul, mul_comm]
      exact mul_le_mul_of_nonneg_left hle hone.le
    have hnear := abs_nearestSteps_sub_le (by decide) (by decide) hmle
    rw [hunit, Nat.cast_min]
    rw [hm, Nat.cast_one, one_mul, Nat.cast_ofNat] at hnear
    generalize (nearestSteps m 100 : Rat) = n at hnear ⊢
    generalize (one : Rat) = o at hone hnear ⊢
    have hall : q / 100 * o ≤ o := mul_le_of_le_one_left hone.le (by linarith)
    -- what exceeds one is cut off, which brings it nearer
    have hcut := abs_min_sub_min_le_max o n o (q / 100 * o)
    rw [min_eq_right hall, sub_self, abs_zero, max_eq_right (abs_nonneg _)] at hcut
    have hparts : min o n / o - q / 100 = (min o n - q / 100 * o) / o := by
      rw [sub_div, mul_div_cancel_right₀ _ hone.ne']
    rw [hparts, abs_div, abs_of_pos hone, div_le_iff₀ hone, one_div_mul_eq_div]
    rw [mul_div_right_comm] at hnear
    exact hcut.trans hnear
  none hx hle := by
    obtain ⟨m, hm, hunit⟩ := exists_unitSteps_scale hx
    rw [max_eq_left hle, zero_mul, Nat.cast_eq_zero] at hm
    rw [hunit, hm, nearestSteps_zero (by decide), Nat.min_zero]
  all {x q} hx hle := by
    obtain ⟨m, hm, hunit⟩ := exists_unitSteps_scale hx
    have hsteps : one * 100 ≤ m := by
      rw [← Nat.cast_le (α := Rat), hm, max_eq_right (le_trans (by norm_num) hle)]
      push_cast
      rw [mul_comm]
      exact mul_le_mul_of_nonneg_right hle (Nat.cast_nonneg _)
    have hpoint : IsPoint one := by
      rw [← Nat.one_mul one]
      exact isPoint_mul_one (by decide)
    have hbeyond : one ≤ nearestSteps m 100 := by
      calc
        one = nearestSteps (one * 100) 100 := (hpoint.nearestSteps_mul (by decide)).symm
        _ ≤ nearestSteps m 100 := nearestSteps_mono (by decide) hsteps
    rw [hunit, Nat.min_eq_left hbeyond]
  nan := rfl
  infinite negative := rfl

/-- Two colours are blended steadily and without ever leaving what lies between them: bringing
the sum into the range of a byte changes nothing.  A humidity does so between the colours of dry
and wet air. -/
theorem interpolate_blends :
    (∀ A B : Color, Blends A B 1 (interpolate A B)) ∧
      (∀ (A : Color) (w : Binary64), interpolate A A w = A) ∧
      (∀ (a b : UInt8) (w : Binary64), ∃ n : Nat, n ≤ 255 ∧
        ((w.clampUnit.mulInt ((b.toNat : Int) - a.toNat)).addInt a.toNat).round.toRat? =
          some (n : Rat) ∧
          mix a b w.clampUnit = UInt8.ofNat n) ∧
      Blends dry wet 100 ofHumidity := by
  refine ⟨weighs_id.blends, interpolate_self, ?_, weighs_percent.blends dry wet⟩
  intro a b w
  have ha := a.toNat_lt
  have hb := b.toNat_lt
  have hle := channel_le (a := a.toNat) (b := b.toNat) (by omega) (by omega) (unitSteps_le w)
  exact ⟨_, hle, round_blend (by omega) (by omega) w, mix_clampUnit a b w⟩

/-- Half way, one channel has risen, one has fallen and one is where it was. -/
example : interpolate ⟨10, 200, 30⟩ ⟨250, 0, 30⟩ (ofRatio false 1 2) = ⟨130, 100, 30⟩ := by
  decide +kernel

end Color

end HouseBoard
