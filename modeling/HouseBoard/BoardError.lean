/-
HouseBoard.BoardError — what can go wrong with the dashboard.

Each error has words, and the status with which it is told to a caller.
-/
import HouseBoard.Rpc
import HouseBoard.Settings.File

namespace HouseBoard

/-- An error of the dashboard. -/
inductive BoardError where
  /-- The settings. -/
  | settings (error : SettingsError)
  /-- A call to the controller. -/
  | rpc (error : RpcError)
  /-- The system; the words are the system's. -/
  | io (text : String)
  /-- An address at which one cannot listen. -/
  | address (text : String)
  /-- A route that leads to no view. -/
  | unknownView (route : String)
  deriving DecidableEq, Repr

namespace BoardError

/-- The words for an error. -/
def text : BoardError → String
  | .settings error => error.text
  | .rpc error => "controller error: " ++ error.text
  | .io words => "io error: " ++ words
  | .address listen => "invalid listen address: " ++ listen
  | .unknownView route => "unknown view: " ++ route

/-- The status of an error. -/
def status : BoardError → Nat
  | .rpc error => error.code.status
  | .unknownView _ => 404
  | .settings _ | .io _ | .address _ => 500

/-- An error as a document. -/
def toJson (e : BoardError) : Json := .obj [("ok", .bool false), ("error", .str e.text)]

end BoardError

end HouseBoard
