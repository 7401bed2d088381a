/-
HouseBoard.Network.Gateway — calls to the controller by way of its gateway.

Each call is a request to a path below the gateway's address.  What becomes of the request
decides the outcome of the call: an answer of success has to hold the reply, any other answer
fails with the code of its status.
-/
import HouseBoard.Board.Script
import HouseBoard.Http.Reason
import HouseBoard.Network.Url
import HouseBoard.Settings.Basic

namespace HouseBoard

namespace Call

/-- The path of a call. -/
def path : Call → String
  | .device did => "/devices/" ++ did.text
  | .devicesWithAlert => "/devices/alerts"
  | .alarm => "/alarm"
  | .garage => "/garage"
  | .heaters => "/heaters"
  | .ble => "/ble/devices"
  | .command did _ => "/devices/" ++ did.text ++ "/command"

/-- What a call sends. -/
def body : Call → Option Json
  | .command _ order => some order.toJson
  | _ => none

end Call

/-- What becomes of a request. -/
inductive Transfer where
  /-- Nothing takes connections. -/
  | refused
  /-- No answer came in time. -/
  | timedOut
  /-- The connection ended before an answer came. -/
  | closed
  /-- An answer came; a body that ended early is none. -/
  | answered (status : Nat) (body : Option String)

namespace Gateway

/-- The address of a call: that of the gateway without the slashes at its end, and the path. -/
def address (s : GatewaySettings) (c : Call) : String :=
  String.ofList (s.baseUrl.toList.reverse.dropWhile (· = '/')).reverse ++ "/api" ++ c.path

/-- What is said of an answer that is no success: its text, or its status if there is none. -/
def complaint (status : Nat) (body : Option String) : String :=
  match body with
  | some text => if text = "" then Reason.text status else text
  | none => Reason.text status

/-- The outcome of an answer. -/
def ofAnswer (c : Call) (status : Nat) (body : Option String) : Outcome c :=
  if 200 ≤ status ∧ status < 300 then
    match body.map c.replyCodec.readText with
    | some (.ok reply) => .ok reply
    | _ => .error ⟨.internal, "error decoding response body"⟩
  else .error ⟨RpcCode.ofStatus status, complaint status body⟩

/-- The outcome of a call whose request, if its address takes one, ends in a transfer. -/
def outcome (s : GatewaySettings) (c : Call) (transfer : Transfer) : Outcome c :=
  if Url.isReachable (address s c) then
    match transfer with
    | .refused => .error ⟨.unavailable, "error sending request"⟩
    | .timedOut => .error ⟨.deadlineExceeded, "operation timed out"⟩
    | .closed => .error ⟨.unknown, "error sending request"⟩
    | .answered status body => ofAnswer c status body
  else .error ⟨.unknown, "builder error"⟩

/-- The controller while nothing takes connections: every call fails. -/
def offline (s : GatewaySettings) : Script where
  failures := Endpoint.all.map fun e =>
    (e, if Url.isReachable (address s .alarm) then ⟨.unavailable, "error sending request"⟩
      else ⟨.unknown, "builder error"⟩)

end Gateway

end HouseBoard
