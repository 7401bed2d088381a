/-
HouseBoard.Board.Answer — what the dashboard answers to requests.

If a key is configured, every request has to bring it, except those to paths that begin with
`/health`.  A view is mounted when it is first asked for.  A command is passed on to the
controller, and a failure is both answered and reported.
-/
import HouseBoard.Board.Render
import HouseBoard.BoardError
import HouseBoard.Http.Resource

namespace HouseBoard

/-- Whether all is shown, as a document. -/
def debugRecord : Record Bool where
  kinds := [Bool]
  fields := .cons (.required "debug_mode" .flag) .nil
  make | (debug, ()) => debug
  split debug := (debug, ())

namespace Board

/-- The answer to a request, or the failure to report an error. -/
abbrev Answer := Except Overflow Response × Board

/-- An answer. -/
def answer (b : Board) (status : Nat) (body : Body := .empty) : Answer :=
  (.ok ⟨status, body⟩, b)

/-- The answer that tells of an error. -/
def refuse (b : Board) (e : BoardError) : Answer := b.answer e.status (.json e.toJson)

/-! ## Keys -/

/-- Whether a path is open to everyone. -/
def isOpen (path : List Char) : Bool := "/health".toList.isPrefixOf path

/-- Whether a request brings the key, if it has to. -/
def admits (b : Board) (r : Request) : Bool :=
  isOpen r.path || b.apiKey.all fun key => r.header? "x-api-key" = some key

/-! ## Views -/

/-- The view of a route as it stands in a path, or the answer if there is none. -/
def viewOf (b : Board) (route : List Char) : Except Answer ViewKind :=
  match Percent.decodeText? route with
  | none => .error (b.answer 400)
  | some route =>
    match ViewKind.ofRoute? route with
    | none => .error (b.refuse (.unknownView route))
    | some kind => .ok kind

/-- Shows a view, which is mounted first if need be. -/
def showView (b : Board) (kind : ViewKind) : Answer :=
  let (id, b) := b.ensureMounted kind
  b.answer 200 (.json (b.render kind id).toJson)

/-- Unmounts a view. -/
def dropView (b : Board) (kind : ViewKind) : Answer :=
  match b.unmountKind kind with
  | (true, b) => b.answer 204
  | (false, b) => b.answer 404

/-- The routes of the mounted views, sorted. -/
def routes (b : Board) : List String :=
  (b.mounted.map fun e => e.1.route).mergeSort fun x y => x ≤ y

/-! ## Commands -/

/-- Passes a command on to a device. -/
def command (b : Board) (did : DeviceRef) (command : Command) : Answer :=
  match b.sendCommand did command with
  | (.ok state, b) => b.answer 200 (.json (DeviceCard.ofDevice state (b.context 0)).toJson)
  | (.error e, b) =>
    match b.report e with
    | (true, b) => b.refuse (.rpc e)
    | (false, b) => (.error .overflow, b)

/-- The device of a path, or the answer if there is none. -/
def deviceOf (b : Board) (device : List Char) : Except Answer DeviceRef :=
  match (Percent.decodeText? device).bind fun text => DeviceRef.ofChars? text.toList with
  | none => .error (b.answer 400)
  | some did => .ok did

/-! ## Notifications -/

/-- The messages that are shown now; the others are let go. -/
def visible (b : Board) : List Toast × Board :=
  let notifier := b.notifier.expire b.wall
  (notifier.toasts, { b with notifier })

/-- Dismisses the message of an identifier. -/
def dismiss (b : Board) (id : List Char) : Answer :=
  match (Percent.decodeText? id).bind Uuid.ofText? with
  | none => b.answer 400
  | some id =>
    match b.notifier.dismiss id with
    | (true, notifier) => { b with notifier }.answer 204
    | (false, notifier) => { b with notifier }.answer 404

/-! ## Requests -/

/-- Goes on with a value, or gives the answer that stands in its place. -/
def orAnswer {α : Type} (value : Except Answer α) (f : α → Answer) : Answer :=
  match value with
  | .ok a => f a
  | .error answer => answer

/-- The answer to a request for a resource by a method that the resource takes. -/
def serve (b : Board) (r : Request) (method : String) : Resource → Answer
  | .health => b.answer 200 (.text "ok")
  | .systemHealth =>
    b.answer 200 (.json (b.health.toJson b.store ((b.wall - b.startedAt).toNat / 1000)))
  | .views => b.answer 200 (.json (Json.ofList Json.str b.routes))
  | .view route =>
    orAnswer (b.viewOf route) (if method = "DELETE" then b.dropView else b.showView)
  | .command device =>
    orAnswer (b.deviceOf device) fun did =>
      match r.read Command.codec with
      | .ok command => b.command did command
      | .error response => (.ok response, b)
  | .notifications =>
    let (toasts, b) := b.visible
    b.answer 200 (.json (Json.ofList Toast.toJson toasts))
  | .notification id => b.dismiss id
  | .debug =>
    if method = "PUT" then
      match r.read debugRecord.codec with
      | .ok debug => { b with debug }.answer 200 (.json (debugRecord.codec.write debug))
      | .error response => (.ok response, b)
    else b.answer 200 (.json (debugRecord.codec.write b.debug))

/-- The answer without its body. -/
def headOnly : Answer → Answer
  | (response, b) => (response.map Response.headOnly, b)

/-- The answer to a request. -/
def respond (b : Board) (r : Request) : Answer :=
  if !b.admits r then b.answer 401
  else match Resource.ofPath? r.path with
    | none => b.answer 404
    | some resource =>
      if resource.methods.contains r.method then b.serve r r.method resource
      else if r.method = "HEAD" ∧ resource.methods.contains "GET" then
        headOnly (b.serve r "GET" resource)
      else b.answer 405

end Board

end HouseBoard
