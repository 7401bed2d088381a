/-
HouseBoard.Proofs.Rounding — what rounding to 64 bits keeps.

A number is rounded to the grid of its own size, which gets coarser at each power of two.
Section 1 is about one grid: rounding keeps the order of numbers, leaves the points of the grid
alone and is off by half a part at most.  Section 2 puts the grids together, and says the same
of the number of smallest steps that `ofSteps` rounds to.  Section 3 reads this off the values
themselves.
-/
import Mathlib.Algebra.Order.Field.Basic
import Mathlib.Data.Rat.Lemmas
import Mathlib.Tactic.Linarith
import Mathlib.Tactic.SplitIfs
import HouseBoard.Json.Codec

namespace HouseBoard.Binary64

/-! ## Section 1 — one grid -/

section

variable {num num' den : Nat}

theorem div_le_nearestEven : num / den ≤ nearestEven num den := by
  unfold nearestEven
  dsimp only
  split
  · exact Nat.le_refl _
  · split
    · exact Nat.le_succ _
    · exact Nat.le_add_right _ _

theorem nearestEven_le_div_succ : nearestEven num den ≤ num / den + 1 := by
  unfold nearestEven
  dsimp only
  split
  · exact Nat.le_succ _
  · split
    · exact Nat.le_refl _
    · omega

/-- Rounding keeps the order of numbers. -/
theorem nearestEven_mono (h : num ≤ num') : nearestEven num den ≤ nearestEven num' den := by
  rcases Nat.lt_or_eq_of_le (Nat.div_le_div_right (c := den) h) with hlt | heq
  · exact Nat.le_trans nearestEven_le_div_succ (Nat.le_trans hlt div_le_nearestEven)
  · -- between two neighbouring points the remainders decide
    have hrem : num % den ≤ num' % den := by
      have hnum := Nat.div_add_mod num den
      have hnum' := Nat.div_add_mod num' den
      rw [heq] at hnum
      omega
    unfold nearestEven
    dsimp only
    rw [heq]
    split_ifs <;> omega

/-- The points of the grid stay where they are. -/
theorem nearestEven_mul (hden : 0 < den) (k : Nat) : nearestEven (k * den) den = k := by
  unfold nearestEven
  dsimp only
  rw [Nat.mul_mod_left, Nat.mul_div_cancel k hden, if_pos hden]

/-- Rounding is off by half a part at most. -/
theorem nearestEven_near (num : Nat) (hden : 0 < den) :
    2 * (nearestEven num den * den) ≤ 2 * num + den ∧
    2 * num ≤ 2 * (nearestEven num den * den) + den := by
  have hnum := Nat.div_add_mod num den
  have hrem := Nat.mod_lt num hden
  rw [Nat.mul_comm] at hnum
  unfold nearestEven
  dsimp only
  split
  · omega
  · split
    · rw [Nat.add_mul]
      omega
    · -- a half is as far from either point
      rcases Nat.mod_two_eq_zero_or_one (num / den) with hzero | hone
      · rw [hzero, Nat.add_zero]
        omega
      · rw [hone, Nat.add_mul]
        omega

end

/-! ## Section 2 — the grids of all sizes -/

/-- The smallest steps between neighbouring points of the grid at `n` smallest steps,
as a power of two. -/
def gridUnit (n : Nat) : Nat := n.log2 - 52

/-- The number of smallest steps that `num / den` of them are rounded to. -/
def nearestSteps (num den : Nat) : Nat :=
  nearestEven num (den * 2 ^ gridUnit (num / den)) * 2 ^ gridUnit (num / den)

/-- A number of smallest steps that is a point of some grid. -/
def IsPoint (n : Nat) : Prop := ∃ s u, s < 2 ^ 53 ∧ n = s * 2 ^ u

section

variable {num num' den : Nat}

/-- A number lies below the point at which its grid ends. -/
theorem lt_grid (hden : 0 < den) : num < 2 ^ 53 * (den * 2 ^ gridUnit (num / den)) := by
  have hdiv : num / den < 2 ^ (53 + gridUnit (num / den)) :=
    Nat.lt_of_lt_of_le Nat.lt_log2_self
      (Nat.pow_le_pow_right (by decide) (by unfold gridUnit; omega))
  rw [Nat.div_lt_iff_lt_mul hden, Nat.pow_add, Nat.mul_assoc] at hdiv
  rwa [Nat.mul_comm den]

/-- Beyond the finest grid, a number lies above the point at which its grid begins. -/
theorem grid_le (h : 0 < gridUnit (num / den)) :
    2 ^ 52 * (den * 2 ^ gridUnit (num / den)) ≤ num := by
  have hne : num / den ≠ 0 := by
    intro hzero
    rw [hzero] at h
    exact absurd h (by decide)
  have hdiv : 2 ^ (52 + gridUnit (num / den)) ≤ num / den :=
    Nat.le_trans (Nat.pow_le_pow_right (by decide) (by unfold gridUnit at h ⊢; omega))
      (Nat.log2_self_le hne)
  calc
    2 ^ 52 * (den * 2 ^ gridUnit (num / den)) = den * 2 ^ (52 + gridUnit (num / den)) := by
      rw [Nat.pow_add, Nat.mul_left_comm]
    _ ≤ den * (num / den) := Nat.mul_le_mul_left _ hdiv
    _ ≤ num := Nat.mul_div_le num den

theorem gridUnit_mono {n n' : Nat} (h : n ≤ n') : gridUnit n ≤ gridUnit n' := by
  rcases Nat.eq_zero_or_pos n with rfl | hpos
  · exact Nat.zero_le _
  · refine Nat.sub_le_sub_right ((Nat.le_log2 (by omega)).mpr ?_) _
    exact Nat.le_trans (Nat.log2_self_le (by omega)) h

/-- The significand has at most 53 bits, or it is the first number that has more. -/
theorem nearestEven_grid_le (num den : Nat) :
    nearestEven num (den * 2 ^ gridUnit (num / den)) ≤ 2 ^ 53 := by
  rcases Nat.eq_zero_or_pos den with rfl | hden
  · rw [Nat.zero_mul]
    exact Nat.le_trans nearestEven_le_div_succ (by rw [Nat.div_zero]; decide)
  · have hpos : 0 < den * 2 ^ gridUnit (num / den) := Nat.mul_pos hden (Nat.two_pow_pos _)
    calc
      _ ≤ nearestEven (2 ^ 53 * (den * 2 ^ gridUnit (num / den))) _ :=
        nearestEven_mono (Nat.le_of_lt (lt_grid hden))
      _ = 2 ^ 53 := nearestEven_mul hpos _

/-- Beyond the finest grid the significand has 53 bits. -/
theorem le_nearestEven_grid (num : Nat) (hden : 0 < den) (h : 0 < gridUnit (num / den)) :
    2 ^ 52 ≤ nearestEven num (den * 2 ^ gridUnit (num / den)) := by
  have hpos : 0 < den * 2 ^ gridUnit (num / den) := Nat.mul_pos hden (Nat.two_pow_pos _)
  calc
    2 ^ 52 = nearestEven (2 ^ 52 * (den * 2 ^ gridUnit (num / den))) _ :=
      (nearestEven_mul hpos _).symm
    _ ≤ _ := nearestEven_mono (grid_le h)

/-- Rounding keeps the order of numbers, also from one grid to the next. -/
theorem nearestSteps_mono (hden : 0 < den) (h : num ≤ num') :
    nearestSteps num den ≤ nearestSteps num' den := by
  have hunit := gridUnit_mono (Nat.div_le_div_right (c := den) h)
  unfold nearestSteps
  rcases Nat.lt_or_eq_of_le hunit with hlt | heq
  · -- the first point of the coarser grid stands between
    calc
      _ ≤ 2 ^ 53 * 2 ^ gridUnit (num / den) :=
        Nat.mul_le_mul_right _ (nearestEven_grid_le num den)
      _ = 2 ^ 52 * 2 ^ (gridUnit (num / den) + 1) := by
        rw [← Nat.pow_add, ← Nat.pow_add]; congr 1; omega
      _ ≤ 2 ^ 52 * 2 ^ gridUnit (num' / den) :=
        Nat.mul_le_mul_left _ (Nat.pow_le_pow_right (by decide) hlt)
      _ ≤ _ := Nat.mul_le_mul_right _ (le_nearestEven_grid num' hden (Nat.zero_lt_of_lt hlt))
  · rw [heq]
    exact Nat.mul_le_mul_right _ (nearestEven_mono h)

/-- The points of the grids stay where they are. -/
theorem IsPoint.nearestSteps_mul {n : Nat} (h : IsPoint n) (hden : 0 < den) :
    nearestSteps (n * den) den = n := by
  obtain ⟨s, u, hs, rfl⟩ := h
  unfold nearestSteps
  rw [Nat.mul_div_cancel _ hden]
  have hunit : gridUnit (s * 2 ^ u) ≤ u := by
    unfold gridUnit
    rcases Nat.eq_zero_or_pos (s * 2 ^ u) with hzero | hpos
    · rw [hzero]
      exact Nat.zero_le _
    · have hlog : (s * 2 ^ u).log2 < 53 + u := by
        rw [Nat.log2_lt (Nat.ne_of_gt hpos), Nat.pow_add]
        exact Nat.mul_lt_mul_of_pos_right hs (Nat.two_pow_pos u)
      omega
  generalize gridUnit (s * 2 ^ u) = g at hunit
  -- a coarser grid is part of a finer one
  have hsplit : s * 2 ^ u = s * 2 ^ (u - g) * 2 ^ g := by
    rw [Nat.mul_assoc, ← Nat.pow_add, Nat.sub_add_cancel hunit]
  have hpos : 0 < den * 2 ^ g := Nat.mul_pos hden (Nat.two_pow_pos g)
  have hparts : s * 2 ^ u * den = s * 2 ^ (u - g) * (den * 2 ^ g) := by
    rw [hsplit, Nat.mul_assoc, Nat.mul_comm (2 ^ g) den]
  rw [hparts, nearestEven_mul hpos, ← hsplit]

theorem nearestSteps_zero {den : Nat} (hden : 0 < den) : nearestSteps 0 den = 0 := by
  have hpoint : IsPoint 0 := ⟨0, 0, by decide, rfl⟩
  have h := hpoint.nearestSteps_mul hden
  rwa [Nat.zero_mul] at h

/-- Rounding is off by one part in 2^53 of the number, or by half a smallest step. -/
theorem nearestSteps_near (num : Nat) (hden : 0 < den) :
    2 ^ 53 * (nearestSteps num den * den) ≤ 2 ^ 53 * num + max num (2 ^ 52 * den) ∧
      2 ^ 53 * num ≤ 2 ^ 53 * (nearestSteps num den * den) + max num (2 ^ 52 * den) := by
  have hpos : 0 < den * 2 ^ gridUnit (num / den) := Nat.mul_pos hden (Nat.two_pow_pos _)
  have hnear := nearestEven_near num hpos
  have hpart : 2 ^ 52 * (den * 2 ^ gridUnit (num / den)) ≤ max num (2 ^ 52 * den) := by
    rcases Nat.eq_zero_or_pos (gridUnit (num / den)) with hzero | hunit
    · rw [hzero, Nat.pow_zero, Nat.mul_one]
      exact Nat.le_max_right _ _
    · exact Nat.le_trans (grid_le hunit) (Nat.le_max_left _ _)
  have hsteps : nearestSteps num den * den =
      nearestEven num (den * 2 ^ gridUnit (num / den)) * (den * 2 ^ gridUnit (num / den)) := by
    rw [nearestSteps, Nat.mul_assoc, Nat.mul_comm (2 ^ _) den]
  rw [hsteps]
  omega

end

/-- The exponent is kept apart, so that the power is never computed. -/
theorem one_eq {k : Nat} (hk : k = 1074) : one = 2 ^ k := by
  unfold one
  rw [← hk, Nat.pow_eq]

theorem one_pos : 0 < one := by
  rw [one_eq rfl]
  generalize 1074 = k
  exact Nat.two_pow_pos k

/-- Whole numbers of 53 bits are points. -/
theorem isPoint_mul_one {k : Nat} (h : k < 2 ^ 53) : IsPoint (k * one) := by
  obtain ⟨u, hu⟩ : ∃ u, u = 1074 := ⟨_, rfl⟩
  exact ⟨k, u, h, by rw [one_eq hu]⟩

theorem nearestSteps_mul_one {k : Nat} (h : k < 2 ^ 53) :
    nearestSteps (k * one) 1 = k * one := by
  have hpoint := (isPoint_mul_one h).nearestSteps_mul Nat.one_pos
  rwa [Nat.mul_one] at hpoint

theorem two_pow_le_one : 2 ^ 52 ≤ one := by
  obtain ⟨k, hk⟩ : ∃ k, k = 1074 := ⟨_, rfl⟩
  rw [one_eq hk]
  exact Nat.pow_le_pow_right (by decide) (by omega)

/-- The error of rounding a number that is not beyond `k`. -/
theorem abs_nearestSteps_sub_le {num den k : Nat} (hden : 0 < den) (hk : 0 < k)
    (h : num ≤ k * one * den) :
    |(nearestSteps num den : Rat) - num / den| ≤ k * one / 2 ^ 53 := by
  obtain ⟨hup, hdown⟩ := nearestSteps_near num hden
  have hpart : max num (2 ^ 52 * den) ≤ k * one * den := by
    refine Nat.max_le.mpr ⟨h, Nat.mul_le_mul_right den ?_⟩
    exact Nat.le_trans two_pow_le_one (Nat.le_mul_of_pos_left one hk)
  generalize nearestSteps num den = n at hup hdown ⊢
  generalize one = o at hpart ⊢
  have hd : (0 : Rat) < den := Nat.cast_pos.mpr hden
  have hquotient : (num : Rat) = num / den * den := (div_mul_cancel₀ _ hd.ne').symm
  have hup' : (2 : Rat) ^ 53 * (n * den) ≤ 2 ^ 53 * num + k * o * den := by
    exact_mod_cast hup.trans (Nat.add_le_add_left hpart _)
  have hdown' : (2 : Rat) ^ 53 * num ≤ 2 ^ 53 * (n * den) + k * o * den := by
    exact_mod_cast hdown.trans (Nat.add_le_add_left hpart _)
  rw [hquotient] at hup' hdown'
  generalize (num : Rat) / den = x at hup' hdown' ⊢
  have hup'' : 2 ^ 53 * (n : Rat) ≤ 2 ^ 53 * x + k * o :=
    le_of_mul_le_mul_right (by linarith) hd
  have hdown'' : 2 ^ 53 * x ≤ 2 ^ 53 * (n : Rat) + k * o :=
    le_of_mul_le_mul_right (by linarith) hd
  rw [abs_le]
  constructor <;> linarith

/-! ## Section 3 — values -/

/-- A value of 64 bits: a finite one has a significand of at most 53 bits and a unit
within the range. -/
inductive Fits : Binary64 → Prop
  | nan : Fits .nan
  | infinite (negative : Bool) : Fits (.infinite negative)
  | finite {negative : Bool} {s u : Nat} (hs : s < 2 ^ 53) (hu : u ≤ 2045) :
      Fits (.finite negative s u)

/-- A value has a sign and a number of smallest steps; it may be infinite if that number is
beyond all whole numbers of 53 bits. -/
inductive Stands (negative : Bool) (n : Nat) : Binary64 → Prop
  | finite {s u : Nat} (hn : magnitude s u = n) : Stands negative n (.finite negative s u)
  | infinite (hn : 2 ^ 53 * one ≤ n) : Stands negative n (.infinite negative)

/-- A number of smallest steps below the range has a finite value. -/
theorem Stands.exists_finite {negative : Bool} {n : Nat} {x : Binary64}
    (h : Stands negative n x) (hn : n < 2 ^ 53 * one) :
    ∃ s u, x = .finite negative s u ∧ magnitude s u = n := by
  cases h with
  | finite hs => exact ⟨_, _, rfl, hs⟩
  | infinite hrange => exact absurd hn (Nat.not_lt_of_le hrange)

/-- What has 53 bits and a unit beyond the range is beyond all whole numbers of 53 bits. -/
theorem mul_one_le_magnitude {s u : Nat} (hs : 2 ^ 52 ≤ s) (hu : 2046 ≤ u) :
    2 ^ 53 * one ≤ magnitude s u := by
  obtain ⟨k, hk⟩ : ∃ k, k = 1074 := ⟨_, rfl⟩
  calc
    2 ^ 53 * one = 2 ^ 52 * 2 ^ (k + 1) := by
      rw [one_eq hk, ← Nat.pow_add, ← Nat.pow_add]; congr 1; omega
    _ ≤ s * 2 ^ u := Nat.mul_le_mul hs (Nat.pow_le_pow_right (by decide) (by omega))

/-- The significand that has a bit too many is carried over to the next unit. -/
theorem ofSteps_eq (negative : Bool) (num den : Nat) :
    let s := nearestEven num (den * 2 ^ gridUnit (num / den))
    let u := gridUnit (num / den)
    ofSteps negative num den =
      if s = 2 ^ 53 then
        (if u + 1 ≤ 2045 then .finite negative (2 ^ 52) (u + 1) else .infinite negative)
      else if u ≤ 2045 then .finite negative s u else .infinite negative := by
  intro s u
  have hpair : (if nearestEven num (den * Nat.pow 2 (Nat.log2 (num / den) - 52)) = Nat.pow 2 53
      then (Nat.pow 2 52, Nat.log2 (num / den) - 52 + 1)
      else (nearestEven num (den * Nat.pow 2 (Nat.log2 (num / den) - 52)),
        Nat.log2 (num / den) - 52)) =
      if s = 2 ^ 53 then (2 ^ 52, u + 1) else (s, u) := rfl
  unfold ofSteps
  dsimp only
  rw [hpair]
  by_cases hcarry : s = 2 ^ 53
  · rw [if_pos hcarry, if_pos hcarry]
  · rw [if_neg hcarry, if_neg hcarry]

/-- A number of smallest steps is rounded to the nearest one that has a value. -/
theorem ofSteps_stands (negative : Bool) (num : Nat) {den : Nat} (hden : 0 < den) :
    Stands negative (nearestSteps num den) (ofSteps negative num den) := by
  have hle := nearestEven_grid_le num den
  have hge := le_nearestEven_grid num hden
  rw [ofSteps_eq]
  unfold nearestSteps
  generalize nearestEven num (den * 2 ^ gridUnit (num / den)) = s at hle hge
  generalize gridUnit (num / den) = u at hge
  by_cases hcarry : s = 2 ^ 53
  · have hn : magnitude (2 ^ 52) (u + 1) = s * 2 ^ u := by
      change 2 ^ 52 * 2 ^ (u + 1) = s * 2 ^ u
      rw [hcarry, ← Nat.pow_add, ← Nat.pow_add]
      congr 1
      omega
    rw [if_pos hcarry]
    split
    · exact .finite hn
    · rw [← hn]
      exact .infinite (mul_one_le_magnitude (Nat.le_refl _) (by omega))
  · rw [if_neg hcarry]
    split
    · exact .finite rfl
    · exact .infinite (mul_one_le_magnitude (hge (by omega)) (by omega))

/-- Whole numbers of 53 bits have a value. -/
theorem exists_ofNat {k : Nat} (h : k < 2 ^ 53) :
    ∃ s u, ofNat k = .finite false s u ∧ magnitude s u = k * one := by
  have hstands := ofSteps_stands false (k * one) Nat.one_pos
  rw [nearestSteps_mul_one h] at hstands
  unfold ofNat ofRatio
  exact hstands.exists_finite (Nat.mul_lt_mul_of_pos_right h one_pos)

/-- A finite value is a number of smallest steps. -/
theorem toRat?_eq_some_iff {x : Binary64} {q : Rat} :
    x.toRat? = some q ↔ ∃ n s u, x = .finite n s u ∧ q * one = steps n s u := by
  have hone : (one : Rat) ≠ 0 := Nat.cast_ne_zero.mpr (Nat.ne_of_gt one_pos)
  constructor
  · intro h
    cases x with
    | nan => cases h
    | infinite n => cases h
    | finite n s u =>
      refine ⟨n, s, u, rfl, ?_⟩
      rw [← Option.some.inj h, Rat.mkRat_eq_div, div_mul_cancel₀ _ hone]
  · rintro ⟨n, s, u, rfl, hq⟩
    rw [toRat?, Rat.mkRat_eq_div, ← hq, mul_div_cancel_right₀ _ hone]

/-- Whole numbers of 53 bits are read as they are. -/
theorem toRat?_ofNat {k : Nat} (h : k < 2 ^ 53) : (ofNat k).toRat? = some (k : Rat) := by
  obtain ⟨s, u, hvalue, hsteps⟩ := exists_ofNat h
  refine toRat?_eq_some_iff.mpr ⟨false, s, u, hvalue, ?_⟩
  rw [steps, if_neg (by decide), hsteps, Nat.cast_mul, Int.cast_mul, Int.cast_natCast,
    Int.cast_natCast]

/-- Whatever is rounded, the result is a value of 64 bits. -/
theorem fits_ofSteps (negative : Bool) (num den : Nat) : (ofSteps negative num den).Fits := by
  have hle := nearestEven_grid_le num den
  rw [ofSteps_eq]
  split_ifs with hcarry hunit hunit
  · exact .finite (by decide) hunit
  · exact .infinite negative
  · exact .finite (Nat.lt_of_le_of_ne hle hcarry) hunit
  · exact .infinite negative

theorem fits_ofRatio (negative : Bool) (num den : Nat) : (ofRatio negative num den).Fits := by
  unfold ofRatio
  exact fits_ofSteps _ _ _

theorem fits_ofNat (n : Nat) : (ofNat n).Fits := fits_ofRatio false n 1

end HouseBoard.Binary64
