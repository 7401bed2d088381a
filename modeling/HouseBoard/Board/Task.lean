/-
HouseBoard.Board.Task — the task that keeps a mounted view up to date.

A task polls at a fixed interval from the instant at which it was mounted, and counts the
seconds by ticks at another.  No poll starts while a fetch is on its way; polls that are overdue
then are made up for by one.  When things fall together, an answer is taken up first, then a
poll starts, and last comes the tick.  A task whose view was given up does none of this any
more.
-/
import HouseBoard.Board.Fetch
import HouseBoard.Board.Store
import HouseBoard.Settings.File

namespace HouseBoard

/-! ## Timers -/

/-- How often a task polls and ticks, in milliseconds. -/
structure Intervals where
  poll : Nat
  tick : Nat
  poll_pos : 0 < poll
  tick_pos : 0 < tick

/-- Intervals of some milliseconds, neither of which may be zero. -/
def Intervals.of? (poll tick : Nat) : Option Intervals :=
  if h : 0 < poll ∧ 0 < tick then some ⟨poll, tick, h.1, h.2⟩ else none

/-- The intervals that are set, neither of which may be zero. -/
def Settings.intervals (s : Settings) : Except SettingsError Intervals :=
  match Intervals.of? s.polling.pollMs s.polling.tickMs with
  | some intervals => .ok intervals
  | none => .error (.invalid .intervals)

/-- The lateness up to which a repeated timer keeps its beat, in milliseconds. -/
def tolerance : Nat := 5

/-- A repeated timer: when it goes off next, and its number once it is set. -/
structure Timer where
  due : Nat
  stamp : Option Nat
  deriving DecidableEq, Repr

namespace Timer

/-- A timer after it went off: next it goes off one period later, or, if it was late, at the
first beat to come. -/
def next (t : Timer) (period now : Nat) : Timer :=
  { due :=
      if t.due + tolerance < now then now + period - (now - t.due) % period
      else t.due + period
    stamp := none }

/-- Sets a timer that is not set. -/
def set (t : Timer) : Act Timer :=
  match t.stamp with
  | some _ => return t
  | none => return { t with stamp := some (← Act.stamp) }

/-- When a timer that is set goes off, and its number. -/
def entry? (t : Timer) : Option (Nat × Nat) := t.stamp.map fun stamp => (t.due, stamp)

end Timer

/-! ## Tasks -/

/-- The task of a mounted view. -/
structure ViewTask where
  id : ViewId
  kind : ViewKind
  poll : Timer
  tick : Timer
  fetch : Option Fetch := none
  /-- Whether the view was given up; its task ends when it runs next. -/
  cancelled : Bool := false

/-- What a task does, one thing at a time. -/
inductive Move where
  /-- Takes up the answers that have come. -/
  | answers
  /-- Starts a poll. -/
  | poll
  /-- Lets the tick go off if it is due. -/
  | tick
  /-- Sets the timers that the task waits for. -/
  | rest
  deriving DecidableEq, Repr

namespace ViewTask

/-- The timers that wake a task; a poll does not while a fetch is on its way. -/
def timers (t : ViewTask) : List (Nat × Nat) :=
  match t.fetch with
  | some fetch => fetch.timers ++ t.tick.entry?.toList
  | none => t.poll.entry?.toList ++ t.tick.entry?.toList

/-- The next instant at which a task wakes; one that was cancelled wakes at once. -/
def nextWake? (t : ViewTask) : Option Nat :=
  if t.cancelled then some 0 else (t.timers.map (·.1)).min?

/-- The number of the first timer that is due; one that was cancelled comes before
all timers. -/
def firstDue? (t : ViewTask) (now : Nat) : Option Nat :=
  if t.cancelled then some 0 else ((t.timers.filter (·.1 ≤ now)).map (·.2)).min?

/-- Takes up the answers to a fetch on its way. -/
def proceed (t : ViewTask) (scene : Scene) : Act ViewTask :=
  match t.fetch with
  | none => return t
  | some fetch => do
    match ← fetch.proceed scene with
    | .underway fetch => return { t with fetch := some fetch }
    | .ended none => return { t with fetch := none }
    | .ended (some snapshot) =>
      Act.emit (.commit snapshot)
      return { t with fetch := none }

/-- Whether a poll starts at an instant. -/
def pollsAt (t : ViewTask) (now : Nat) : Bool := t.fetch.isNone && decide (t.poll.due ≤ now)

/-- Starts a poll. -/
def startPoll (t : ViewTask) (intervals : Intervals) (scene : Scene) : Act ViewTask := do
  let fetch ← Fetch.start scene t.kind
  return { t with poll := t.poll.next intervals.poll scene.now, fetch := some fetch }

/-- Lets the tick go off if it is due. -/
def runTick (t : ViewTask) (intervals : Intervals) (scene : Scene) : Act ViewTask :=
  if t.tick.due ≤ scene.now then do
    Act.emit .tick
    return { t with tick := t.tick.next intervals.tick scene.now }
  else return t

/-- Sets the timers that the task waits for. -/
def setTimers (t : ViewTask) : Act ViewTask := do
  let poll ← (if t.fetch.isNone then t.poll.set else pure t.poll)
  let tick ← t.tick.set
  return { t with poll, tick }

/-- Does one thing. -/
def move (t : ViewTask) (intervals : Intervals) (scene : Scene) : Move → Act ViewTask
  | .answers => t.proceed scene
  | .poll => t.startPoll intervals scene
  | .tick => t.runTick intervals scene
  | .rest => t.setTimers

end ViewTask

end HouseBoard
