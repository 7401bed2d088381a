/-
HouseBoard.Proofs.Ticker — what a ticker shows after any ticks and new samples.

A ticker counts in 64 bits, and so does the age it adds the count to.  Section 1 tells where
moves leave a ticker without running them: at the last sample they brought, with the ticks that
came after it.  Section 2 reads the liveness of such a ticker: both counts may stop at the
largest number, yet what is online is decided by the sum without a bound.
-/
import Mathlib.Algebra.Group.Nat.Defs
import Mathlib.Data.List.DropRight
import HouseBoard.Proofs.Online

namespace HouseBoard

/-! ## Section 1 — moves -/

/-- Seconds that were added up before lose nothing but what lies beyond the largest number. -/
theorem addSeconds_addSeconds (a b c : Nat) :
    addSeconds a (addSeconds b c) = addSeconds a (b + c) := by
  unfold addSeconds
  omega

/-- What can happen to a ticker. -/
inductive TickerMove where
  | tick
  | rebase (sample : LivenessSample)
  deriving DecidableEq, Repr

namespace TickerMove

/-- The sample that a move brings. -/
def sample? : TickerMove → Option LivenessSample
  | .tick => none
  | .rebase sample => some sample

/-- The last sample that moves bring, or else the one before them. -/
def lastSample (first : LivenessSample) (moves : List TickerMove) : LivenessSample :=
  (moves.filterMap sample?).getLastD first

/-- The number of ticks after the last new sample. -/
def ticksSince (moves : List TickerMove) : Nat :=
  (moves.rtakeWhile fun m => m.sample?.isNone).length

/-- A tick brings no sample. -/
theorem lastSample_tick (first : LivenessSample) (moves : List TickerMove) :
    lastSample first (moves ++ [.tick]) = lastSample first moves := by
  simp [lastSample, sample?]

/-- A new sample is the last one. -/
theorem lastSample_rebase (first sample : LivenessSample) (moves : List TickerMove) :
    lastSample first (moves ++ [.rebase sample]) = sample := by
  simp [lastSample, sample?]

/-- A tick is one more. -/
theorem ticksSince_tick (moves : List TickerMove) :
    ticksSince (moves ++ [.tick]) = ticksSince moves + 1 := by
  rw [ticksSince, List.rtakeWhile_concat_pos _ _ _ rfl, List.length_append]
  rfl

/-- No tick has come after a new sample. -/
theorem ticksSince_rebase (sample : LivenessSample) (moves : List TickerMove) :
    ticksSince (moves ++ [.rebase sample]) = 0 := by
  rw [ticksSince, List.rtakeWhile_concat_neg _ _ _ (by simp [sample?])]
  rfl

end TickerMove

namespace LivenessTicker

/-- A ticker after a move. -/
def move (t : LivenessTicker) : TickerMove → LivenessTicker
  | .tick => t.tick
  | .rebase sample => t.rebase sample

/-- A ticker after several moves. -/
def run (t : LivenessTicker) (moves : List TickerMove) : LivenessTicker := moves.foldl move t

/-- One move after others. -/
theorem run_concat (t : LivenessTicker) (moves : List TickerMove) (m : TickerMove) :
    t.run (moves ++ [m]) = (t.run moves).move m := List.foldl_concat ..

/-- A ticker holds the last sample and has counted the ticks since. -/
theorem run_start (first : LivenessSample) (moves : List TickerMove) :
    (start first).run moves =
      ⟨TickerMove.lastSample first moves, addSeconds 0 (TickerMove.ticksSince moves)⟩ := by
  induction moves using List.reverseRecOn with
  | nil => rfl
  | append_singleton moves m ih =>
    rw [run_concat, ih]
    cases m with
    | tick =>
      rw [TickerMove.lastSample_tick, TickerMove.ticksSince_tick]
      simp only [move, tick, addSeconds, LivenessTicker.mk.injEq, true_and]
      omega
    | rebase sample =>
      rw [TickerMove.lastSample_rebase, TickerMove.ticksSince_rebase]
      rfl

/-- Ticks one by one leave the sample, and the count where it is after as many at once. -/
theorem run_replicate_tick {t : LivenessTicker} (hoffset : t.offset ≤ maxSeconds) (n : Nat) :
    t.run (List.replicate n .tick) = t.ticks n := by
  induction n with
  | zero =>
    obtain ⟨sample, offset⟩ := t
    simp only [ticks, addSeconds, Nat.add_zero, Nat.min_eq_left hoffset]
    rfl
  | succ n ih =>
    rw [List.replicate_succ', run_concat, ih]
    simp only [move, tick, ticks, addSeconds, LivenessTicker.mk.injEq, true_and]
    omega

end LivenessTicker

/-! ## Section 2 — liveness -/

namespace LivenessSample

/-- A sample that was never heard is offline, whatever else it says. -/
theorem evaluate_of_never {s : LivenessSample} (h : s.lastSeenAt = none) (offset : Nat)
    (style : LabelStyle) : s.evaluate offset style = ⟨false, neverLabel, none⟩ := by
  rw [evaluate, h]

/-- The liveness of a sample that was heard: the age stops at the largest number, but
the sum decides. -/
theorem evaluate_of_seen {s : LivenessSample} {seen : Timestamp} (h : s.lastSeenAt = some seen)
    (hthreshold : s.threshold ≤ maxSeconds) (offset : Nat) (style : LabelStyle) :
    s.evaluate offset style =
      { online := decide (s.age + offset < s.threshold)
        label := style.label (addSeconds s.age offset)
        effectiveAge := some (addSeconds s.age offset) } := by
  rw [evaluate, h]
  simp only [addSeconds_lt_iff hthreshold]

/-- A count that has stopped at the largest number shows the same as one that goes on. -/
theorem evaluate_addSeconds (s : LivenessSample) (n : Nat) (style : LabelStyle) :
    s.evaluate (addSeconds 0 n) style = s.evaluate n style := by
  simp only [evaluate, addSeconds_addSeconds, Nat.zero_add]

/-- So does its view. -/
theorem view_addSeconds (s : LivenessSample) (n : Nat) :
    s.view (addSeconds 0 n) = s.view n := by
  simp only [view, badge, evaluate_addSeconds]

/-- A view says the same as the minimal label, and its badge is the time and the full label. -/
theorem view_eq {s : LivenessSample} {seen : Timestamp} (h : s.lastSeenAt = some seen)
    (offset : Nat) :
    s.view offset = ⟨(s.evaluate offset .minimal).online, (s.evaluate offset .minimal).label,
      seen.display ++ " " ++ (s.evaluate offset .full).label⟩ := by
  rw [view, badge, h]

/-- More seconds do not bring an offline sample back. -/
theorem online_eq_false_mono {s : LivenessSample} {m n : Nat} {style : LabelStyle} (hle : m ≤ n)
    (h : (s.evaluate m style).online = false) : (s.evaluate n style).online = false := by
  cases hseen : s.lastSeenAt with
  | none => rw [evaluate_of_never hseen]
  | some seen =>
    simp only [evaluate, hseen, decide_eq_false_iff_not, Nat.not_lt] at h ⊢
    have hage : addSeconds s.age m ≤ addSeconds s.age n := by
      unfold addSeconds
      omega
    exact Nat.le_trans h hage

end LivenessSample

namespace LivenessTicker

/-- After any moves a ticker shows the liveness of the last sample: one that was heard has the
age of its report and the ticks since, up to the largest 64-bit number, and is online exactly if
their sum is below the threshold; all labels name that age.  A sample that was never heard is
offline, and no tick brings an offline one back. -/
theorem current_run (first : LivenessSample) (moves : List TickerMove)
    (hthreshold : (TickerMove.lastSample first moves).threshold ≤ maxSeconds) :
    let s := TickerMove.lastSample first moves
    let n := TickerMove.ticksSince moves
    let t := (start first).run moves
    t.sample = s ∧
      (s.lastSeenAt = none → (∀ style, t.current style = ⟨false, "never", none⟩) ∧
        t.sample.view t.offset = ⟨false, "never", "never"⟩) ∧
      (∀ seen, s.lastSeenAt = some seen →
        let age := min (s.age + n) (2 ^ 64 - 1)
        t.current .minimal = ⟨decide (s.age + n < s.threshold), humanize age, some age⟩ ∧
          t.current .full =
            ⟨decide (s.age + n < s.threshold),
              "(active " ++ humanize age ++ " ago)", some age⟩ ∧
          t.sample.view t.offset = ⟨decide (s.age + n < s.threshold), humanize age,
            seen.display ++ " " ++ ("(active " ++ humanize age ++ " ago)")⟩) ∧
      ∀ style, (t.current style).online = false →
        ∀ m, ((t.run (List.replicate m .tick)).current style).online = false := by
  intro s n t
  have ht : t = ⟨s, addSeconds 0 n⟩ := run_start first moves
  have hcurrent (style : LabelStyle) : t.current style = s.evaluate n style := by
    rw [ht, current, LivenessSample.evaluate_addSeconds]
  refine ⟨by rw [ht], fun hnever => ⟨fun style => ?_, ?_⟩, fun seen hseen => ⟨?_, ?_, ?_⟩,
    fun style hoffline m => ?_⟩
  · rw [hcurrent, LivenessSample.evaluate_of_never hnever, neverLabel]
  · rw [ht, LivenessSample.view, LivenessSample.badge, hnever,
      LivenessSample.evaluate_of_never hnever, neverLabel]
  · rw [hcurrent, LivenessSample.evaluate_of_seen hseen hthreshold]
    rfl
  · rw [hcurrent, LivenessSample.evaluate_of_seen hseen hthreshold]
    rfl
  · rw [ht, LivenessSample.view_addSeconds, LivenessSample.view_eq hseen]
    simp only [LivenessSample.evaluate_of_seen hseen hthreshold]
    rfl
  · have hcount : t.offset ≤ maxSeconds := by
      rw [ht]
      exact Nat.min_le_right ..
    rw [run_replicate_tick hcount]
    refine LivenessSample.online_eq_false_mono ?_ hoffline
    show t.offset ≤ addSeconds t.offset m
    unfold addSeconds
    omega

/-- Three ticks after a sample three seconds short of 2⁶⁴, whose threshold is the largest
number: the age has stopped there, and the device is offline. -/
theorem current_run_at_largest :
    let last : LivenessSample := ⟨some ⟨⟨2024, 6, 1⟩, 12, 0, 0, 0, 0⟩, 2 ^ 64 - 3, 2 ^ 64 - 1⟩
    let t := (start ⟨none, 0, 60⟩).run [.tick, .rebase last, .tick, .tick, .tick]
    last.threshold ≤ maxSeconds ∧
      t.current .minimal = ⟨false, "213503982334601j 7h 0m 15s", some (2 ^ 64 - 1)⟩ ∧
      t.sample.view t.offset = ⟨false, "213503982334601j 7h 0m 15s",
        "2024-06-01 12:00:00 (active 213503982334601j 7h 0m 15s ago)"⟩ := by
  intro last t
  obtain ⟨-, -, hseen, -⟩ :=
    current_run ⟨none, 0, 60⟩ [.tick, .rebase last, .tick, .tick, .tick] (by decide +kernel)
  obtain ⟨hminimal, -, hview⟩ := hseen ⟨⟨2024, 6, 1⟩, 12, 0, 0, 0, 0⟩ rfl
  refine ⟨by decide +kernel, hminimal.trans (by decide +kernel),
    hview.trans (by decide +kernel)⟩

end LivenessTicker

end HouseBoard
