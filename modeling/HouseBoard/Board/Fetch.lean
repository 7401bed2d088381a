/-
HouseBoard.Board.Fetch — how a view learns its state from the controller.

The home view makes four calls at once, and puts what they bring in the place of what it knew
when it made them.  The view of a device first asks for the device and then, if a controller
owns it, for that controller.  The other views make one call.  What happens on the way is told
as a list of effects; the state that was learned is the last of them.
-/
import HouseBoard.Board.Script
import HouseBoard.View.Kind
import HouseBoard.View.Snapshot

namespace HouseBoard

/-! ## Effects -/

/-- What a view's task does to the world around it. -/
inductive Effect where
  /-- Makes a call. -/
  | start (call : Call)
  /-- A call was answered. -/
  | complete (call : Call)
  /-- The answer to a call was taken up as a success. -/
  | succeed (call : Call)
  /-- The answer to a call was taken up as a failure. -/
  | fail (call : Call) (error : RpcError)
  /-- A new state was learned. -/
  | commit (snapshot : Snapshot)
  /-- A second has passed. -/
  | tick
  deriving DecidableEq, Repr

/-- What a task can see: the time, what the controller answers, and what is known of
its view. -/
structure Scene where
  now : Nat
  script : Script
  known : Option Snapshot

/-- What a task has done so far in one turn. -/
structure Turn where
  /-- The number that the next timer takes when it is set. -/
  nextStamp : Nat
  effects : List Effect := []

/-- A step of a task. -/
abbrev Act := StateM Turn

namespace Act

/-- Causes an effect. -/
def emit (e : Effect) : Act Unit := modify fun t => { t with effects := t.effects ++ [e] }

/-- Takes the number of a timer that is set; timers that are due at one instant go
off in this order. -/
def stamp : Act Nat := do
  let t ← get
  set { t with nextStamp := t.nextStamp + 1 }
  return t.nextStamp

/-- Takes up the outcome of a call. -/
def settle (c : Call) : Outcome c → Act (Option c.Reply)
  | .ok a => do emit (.succeed c); return some a
  | .error e => do emit (.fail c e); return none

end Act

/-! ## Calls on their way -/

/-- A call that has been made. -/
inductive Pending (c : Call) where
  /-- The answer comes at an instant. -/
  | waiting (due stamp : Nat)
  | answered (outcome : Outcome c)

namespace Pending

/-- Makes a call. -/
def start (scene : Scene) (c : Call) : Act (Pending c) := do
  Act.emit (.start c)
  match scene.script.delayOf c with
  | some ms => return .waiting (scene.now + ms) (← Act.stamp)
  | none =>
    Act.emit (.complete c)
    return .answered (scene.script.outcome c)

/-- Lets the answer arrive if it is due. -/
def proceed {c : Call} (scene : Scene) (p : Pending c) : Act (Pending c) :=
  match p with
  | .waiting due _ =>
    if due ≤ scene.now then do
      Act.emit (.complete c)
      return .answered (scene.script.outcome c)
    else return p
  | .answered _ => return p

/-- The outcome, once it is there. -/
def outcome? {c : Call} : Pending c → Option (Outcome c)
  | .waiting .. => none
  | .answered outcome => some outcome

/-- When the answer comes, and the number of its timer. -/
def timer? {c : Call} : Pending c → Option (Nat × Nat)
  | .waiting due stamp => some (due, stamp)
  | .answered _ => none

end Pending

/-! ## Calls of views -/

/-- The views that make one call. -/
inductive PlainView where
  | ble
  | garage
  | heaters
  | alarm
  deriving DecidableEq, Repr

namespace PlainView

/-- The call of a view. -/
def call : PlainView → Call
  | .ble => .ble
  | .garage => .garage
  | .heaters => .heaters
  | .alarm => .alarm

/-- The snapshot that an answer makes. -/
def snapshot : (v : PlainView) → v.call.Reply → Snapshot
  | .ble, list => .ble list
  | .garage, state => .garage state
  | .heaters, state => .heaters state
  | .alarm, state => .alarm state

end PlainView

/-- The controllers that own devices. -/
inductive Owner where
  | garage
  | heaters
  | alarm
  deriving DecidableEq, Repr

namespace Owner

/-- The controller that a device names. -/
def ofName? : String → Option Owner
  | "garage" => some .garage
  | "heaters" => some .heaters
  | "alarms" | "alarm" => some .alarm
  | _ => none

/-- The call for the state of a controller. -/
def call : Owner → Call
  | .garage => .garage
  | .heaters => .heaters
  | .alarm => .alarm

/-- The state that an answer makes. -/
def live : (o : Owner) → o.call.Reply → LiveState
  | .garage, state => .garage state
  | .heaters, state => .heaters state
  | .alarm, state => .alarm state

/-- The controller that owns a device. -/
def of? (d : DeviceState) : Option Owner := d.uiViewName.bind ofName?

end Owner

/-! ## Fetches -/

/-- A fetch on its way. -/
inductive Fetch where
  /-- The calls of the home view, and the sections that were known when they were made. -/
  | home (known : HomeSnapshot) (heaters : Pending .heaters) (alarm : Pending .alarm)
      (alerts : Pending .devicesWithAlert) (ble : Pending .ble)
  | plain (view : PlainView) (pending : Pending view.call)
  | device (did : DeviceRef) (pending : Pending (.device did))
  /-- The device has answered; its controller has not. -/
  | controller (state : DeviceState) (owner : Owner) (pending : Pending owner.call)

/-- A fetch after a step: on its way still, or ended with what it learned. -/
inductive Progress where
  | underway (fetch : Fetch)
  | ended (learned : Option Snapshot)

/-- The sections that are known when nothing else is. -/
def Snapshot.sections : Option Snapshot → HomeSnapshot
  | some (.home sections) => sections
  | _ => {}

/-- The sections of the home view with the fresh ones in place of the old ones. -/
def HomeSnapshot.updated (old fresh : HomeSnapshot) : HomeSnapshot where
  heaters := fresh.heaters <|> old.heaters
  alarm := fresh.alarm <|> old.alarm
  devicesWithAlert := fresh.devicesWithAlert <|> old.devicesWithAlert
  ble := fresh.ble <|> old.ble

namespace Fetch

/-- Makes the calls of a view that are made at once. -/
def start (scene : Scene) : ViewKind → Act Fetch
  | .home => do
    let heaters ← Pending.start scene .heaters
    let alarm ← Pending.start scene .alarm
    let alerts ← Pending.start scene .devicesWithAlert
    let ble ← Pending.start scene .ble
    return .home (Snapshot.sections scene.known) heaters alarm alerts ble
  | .ble => return .plain .ble (← Pending.start scene _)
  | .garage => return .plain .garage (← Pending.start scene _)
  | .heaters => return .plain .heaters (← Pending.start scene _)
  | .alarm => return .plain .alarm (← Pending.start scene _)
  | .device did => return .device did (← Pending.start scene _)

/-- Takes up the answers of the home view in a fixed order; a section that failed stays
as it was known. -/
def settleHome (known : HomeSnapshot) (heaters : Outcome .heaters) (alarm : Outcome .alarm)
    (alerts : Outcome .devicesWithAlert) (ble : Outcome .ble) : Act (Option Snapshot) := do
  let heaters ← Act.settle .heaters heaters
  let alarm ← Act.settle .alarm alarm
  let alerts ← Act.settle .devicesWithAlert alerts
  let ble ← Act.settle .ble ble
  let fresh : HomeSnapshot := ⟨heaters, alarm, alerts, ble⟩
  return if fresh = {} then none else some (.home (known.updated fresh))

/-- Goes on with the call to a controller. -/
def proceedOwner (scene : Scene) (state : DeviceState) (owner : Owner)
    (pending : Pending owner.call) :
    Act Progress := do
  let pending ← pending.proceed scene
  match pending.outcome? with
  | none => return .underway (.controller state owner pending)
  | some outcome =>
    let live ← Act.settle owner.call outcome
    return .ended (live.map fun l => .device ⟨state, some (owner.live l)⟩)

/-- Goes on with the call for a device. -/
def proceedDevice (scene : Scene) (did : DeviceRef) (pending : Pending (.device did)) :
    Act Progress := do
  let pending ← pending.proceed scene
  match pending.outcome? with
  | none => return .underway (.device did pending)
  | some outcome =>
    match ← Act.settle (.device did) outcome with
    | none => return .ended none
    | some state =>
      match Owner.of? state with
      | none => return .ended (some (.device ⟨state, none⟩))
      | some owner => proceedOwner scene state owner (← Pending.start scene owner.call)

/-- Goes on with a fetch: takes up the answers that have come. -/
def proceed (scene : Scene) : Fetch → Act Progress
  | .home known heaters alarm alerts ble => do
    let heaters ← heaters.proceed scene
    let alarm ← alarm.proceed scene
    let alerts ← alerts.proceed scene
    let ble ← ble.proceed scene
    match heaters.outcome?, alarm.outcome?, alerts.outcome?, ble.outcome? with
    | some h, some a, some d, some b => return .ended (← settleHome known h a d b)
    | _, _, _, _ => return .underway (.home known heaters alarm alerts ble)
  | .plain view pending => do
    let pending ← pending.proceed scene
    match pending.outcome? with
    | none => return .underway (.plain view pending)
    | some outcome => return .ended ((← Act.settle view.call outcome).map view.snapshot)
  | .device did pending => proceedDevice scene did pending
  | .controller state owner pending => proceedOwner scene state owner pending

/-- The timers of the answers that are awaited. -/
def timers : Fetch → List (Nat × Nat)
  | .home _ heaters alarm alerts ble =>
    [heaters.timer?, alarm.timer?, alerts.timer?, ble.timer?].filterMap id
  | .plain _ pending => pending.timer?.toList
  | .device _ pending => pending.timer?.toList
  | .controller _ _ pending => pending.timer?.toList

end Fetch

end HouseBoard
