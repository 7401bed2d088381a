/-
HouseBoard.Board.Basic — the dashboard and the time in which it runs.

Time is counted in milliseconds from the start.  A step of the dashboard ends when no task has
anything left to do at the instant; then time can go on to the next instant at which a task
wakes.  Tasks that wake at one instant run one after the other, in the order in which the timers
that woke them were set.
-/
import HouseBoard.Board.Task
import HouseBoard.Board.Health
import HouseBoard.Notifier

namespace HouseBoard

/-- The dashboard. -/
structure Board where
  intervals : Intervals
  policy : LivenessPolicy
  season : SeasonPolicy
  /-- The key that callers must know. -/
  apiKey : Option String
  debug : Bool
  notifier : Notifier
  /-- The wall clock, in milliseconds counted from 1970, and its value at the start. -/
  wall : Int
  startedAt : Int
  script : Script := {}
  log : CallLog := {}
  store : Store := {}
  health : Health := {}
  tasks : List ViewTask := []
  /-- The views that were mounted on behalf of callers, one of each kind at most. -/
  mounted : List (ViewKind × ViewId) := []
  /-- The views that were mounted one by one and are still held. -/
  held : List ViewId := []
  /-- The identifier of the next view.  It has no bound here: fewer than 2 ^ 64 views are ever
  mounted, so that a counter of 64 bits would give no identifier twice. -/
  nextId : ViewId := 1
  nextStamp : Nat := 0
  now : Nat := 0

namespace Board

/-- The dashboard of some settings, at an instant of the wall clock. -/
def start (s : Settings) (intervals : Intervals) (wall : Int) (firstToast : Uuid) : Board where
  intervals
  policy := s.liveness
  season := s.season
  apiKey := s.server.apiKey.filter (· ≠ "")
  debug := s.display.debugMode
  notifier := .start s.notifications firstToast
  wall
  startedAt := wall

/-- What the task of a view can see. -/
def scene (b : Board) (id : ViewId) : Scene :=
  ⟨b.now, b.script, (b.store.get? id).bind (·.snapshot)⟩

/-! ## Effects -/

/-- Reports a failure; says whether it could be reported. -/
def report (b : Board) (e : RpcError) : Bool × Board :=
  match b.notifier.reportError b.wall e with
  | .ok (_, notifier) => (true, { b with notifier })
  | .error .overflow => (false, b)

/-- Keeps a new state of a view. -/
def commit (b : Board) (id : ViewId) (snapshot : Snapshot) : Board :=
  { b with store := b.store.update id fun slot => slot.commit b.wall snapshot }

/-- Lets a second pass for a view. -/
def tick (b : Board) (id : ViewId) : Board := { b with store := b.store.update id Slot.tick }

/-- Lets an effect of a view's task happen; says whether the task can go on. -/
def perform (b : Board) (id : ViewId) : Effect → Bool × Board
  | .start call => (true, { b with log := b.log.start call })
  | .complete call => (true, { b with log := b.log.complete call })
  | .succeed _ => (true, { b with health := b.health.succeed })
  | .fail _ e => { b with health := b.health.fail e }.report e
  | .commit snapshot => (true, b.commit id snapshot)
  | .tick => (true, b.tick id)

/-- Lets effects happen up to the first after which the task cannot go on. -/
def performAll (b : Board) (id : ViewId) : List Effect → Bool × Board
  | [] => (true, b)
  | e :: es =>
    match b.perform id e with
    | (true, b) => b.performAll id es
    | (false, b) => (false, b)

/-! ## Tasks -/

/-- The task of a view. -/
def task? (b : Board) (id : ViewId) : Option ViewTask := b.tasks.find? (·.id = id)

/-- What a task becomes by doing one thing, and what it does. -/
def turn (b : Board) (t : ViewTask) (m : Move) : ViewTask × Turn :=
  (t.move b.intervals (b.scene t.id) m).run { nextStamp := b.nextStamp }

/-- Lets the task of a view do one thing; a task that cannot go on is gone, and its
slot stays. -/
def move (b : Board) (id : ViewId) (m : Move) : Board :=
  match b.task? id with
  | none => b
  | some t =>
    let (t', turn) := b.turn t m
    match { b with nextStamp := turn.nextStamp }.performAll id turn.effects with
    | (true, b) => { b with tasks := b.tasks.map fun u => if u.id = id then t' else u }
    | (false, b) => { b with tasks := b.tasks.filter (·.id ≠ id) }

/-- Starts the polls that are due, one after the other, until a fetch takes time. -/
def startPolls (id : ViewId) : Nat → Board → Board
  | 0, b => b
  | rounds + 1, b =>
    if (b.task? id).any (·.pollsAt b.now) then
      startPolls id rounds ((b.move id .poll).move id .answers)
    else b

/-- Gives a view up: its task ends when it runs next. -/
def cancel (b : Board) (id : ViewId) : Board :=
  { b with tasks := b.tasks.map fun t => if t.id = id then { t with cancelled := true } else t }

/-- Ends the task of a view, with the fetch that was on its way, and takes its slot away. -/
def finish (b : Board) (id : ViewId) : Board :=
  { b with
    tasks := b.tasks.filter (·.id ≠ id)
    store := b.store.remove id
    health := b.health.unmount }

/-- Lets the task of a view run until it has to wait. -/
def wake (b : Board) (id : ViewId) : Board :=
  match b.task? id with
  | none => b
  | some t =>
    if t.cancelled then b.finish id
    else ((startPolls id (tolerance + 2) (b.move id .answers)).move id .tick).move id .rest

/-- The views whose tasks wake now, in order. -/
def ready (b : Board) : List ViewId :=
  let due := b.tasks.filterMap fun t => (t.firstDue? b.now).map fun stamp => (stamp, t.id)
  (due.mergeSort fun x y => x.1 ≤ y.1).map (·.2)

/-- Lets all tasks run that wake now. -/
def settle (b : Board) : Board := b.ready.foldl wake b

/-! ## Time -/

/-- The next instant at which a task wakes. -/
def nextWake? (b : Board) : Option Nat := (b.tasks.filterMap ViewTask.nextWake?).min?

/-- Lets tasks run at all instants before one. -/
def runUntil (target : Nat) : Nat → Board → Board
  | 0, b => b
  | fuel + 1, b =>
    match b.nextWake? with
    | some instant =>
      if instant < target then runUntil target fuel { b with now := max b.now instant }.settle
      else b
    | none => b

/-- Goes to an instant, at which tasks are still to run. -/
def reach (b : Board) (target : Nat) : Board :=
  { runUntil target (target - b.now + 1) b with now := target }

/-- Lets some milliseconds pass. -/
def advance (b : Board) (ms : Nat) : Board := (b.reach (b.now + ms)).settle

/-- Lets time pass in steps of ten milliseconds until a condition holds; says whether
it came to hold. -/
def await (condition : Board → Bool) : Nat → Board → Bool × Board
  | 0, b => (condition b, b)
  | looks + 1, b => if condition b then (true, b) else await condition looks (b.advance 10)

/-! ## Views -/

/-- Mounts a view under a new number. -/
def mount (b : Board) (kind : ViewKind) : ViewId × Board :=
  let task : ViewTask :=
    { id := b.nextId
      kind
      poll := ⟨b.now, some b.nextStamp⟩
      tick := ⟨b.now + b.intervals.tick, none⟩ }
  (b.nextId,
    { b with
      store := b.store.put b.nextId { kind }
      health := b.health.mount
      tasks := b.tasks ++ [task]
      nextId := b.nextId + 1
      nextStamp := b.nextStamp + 1 })

/-- Mounts a view that is held until it is released. -/
def hold (b : Board) (kind : ViewKind) : ViewId × Board :=
  let (id, b) := b.mount kind
  (id, { b with held := id :: b.held })

/-- Releases a view that is held; says whether it was. -/
def release (b : Board) (id : ViewId) : Bool × Board :=
  if b.held.contains id then (true, { b.cancel id with held := b.held.erase id })
  else (false, b)

/-- The number of the view of a kind, which is mounted if it is not yet. -/
def ensureMounted (b : Board) (kind : ViewKind) : ViewId × Board :=
  match b.mounted.lookup kind with
  | some id => (id, b)
  | none =>
    let (id, b) := b.mount kind
    (id, { b with mounted := b.mounted ++ [(kind, id)] })

/-- Gives the view of a kind up. -/
def abandon (b : Board) (kind : ViewKind) (id : ViewId) : Board :=
  { b.cancel id with mounted := b.mounted.filter fun e => e.1 ≠ kind }

/-- Unmounts the view of a kind, and waits until its task has ended; says whether
there was one. -/
def unmountKind (b : Board) (kind : ViewKind) : Bool × Board :=
  match b.mounted.lookup kind with
  | some id => (true, (b.abandon kind id).wake id)
  | none => (false, b)

/-! ## Commands -/

/-- Sends a command, and waits for the answer. -/
def sendCommand (b : Board) (did : DeviceRef) (command : Command) :
    Except RpcError DeviceState × Board :=
  let call := Call.command did command
  let delay := b.script.delayOf call
  let b := { b with log := b.log.start call }
  let b := match delay with
    | some ms => b.reach (b.now + ms)
    | none => b
  (b.script.outcome call, { b with log := b.log.complete call })

end Board

end HouseBoard
