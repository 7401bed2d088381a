/-
HouseBoard.Launch.Plan — how the dashboard is started.

The settings come from the file that a variable names, or from a file of a fixed name.  The
dashboard starts if they make sense and one can listen at their address.  Some views are mounted
from the start.
-/
import HouseBoard.Board.Basic
import HouseBoard.BoardError
import HouseBoard.Launch.Variables
import HouseBoard.Network.Gateway

namespace HouseBoard

/-- What the dashboard finds where it is started. -/
structure Surroundings where
  /-- The variables that are given. -/
  given : Variables.Values
  /-- The file of further variables. -/
  variableFile : Option String
  file : String → SettingsFile
  /-- Whether one can listen at an address. -/
  isFree : Socket → Bool

namespace Surroundings

/-- The variable that names the file of settings. -/
def pathVariable : String := "CANIOT_DASHBOARD_CONFIG"

/-- The file of settings when no variable names one. -/
def standardPath : String := "dashboard.yaml"

/-- All variables. -/
def allVariables (s : Surroundings) : Variables.Values :=
  match s.variableFile with
  | some text => Variables.withFile s.given text
  | none => s.given

/-- The path of the file of settings. -/
def settingsPath (s : Surroundings) : String :=
  (s.allVariables.lookup pathVariable).getD standardPath

/-- The settings and the address to listen at, or why the dashboard does not start. -/
def plan (s : Surroundings) : Except BoardError (Settings × Socket) := do
  let settings ← (Settings.ofFile s.settingsPath (s.file s.settingsPath)).mapError
    BoardError.settings
  match Socket.ofText? settings.server.listen with
  | none => throw (.address settings.server.listen)
  | some socket =>
    if s.isFree socket then return (settings, socket) else throw (.io "cannot assign address")

end Surroundings

/-- The views that are mounted from the start. -/
def permanentViews : List ViewKind := [.home, .ble, .garage, .heaters, .alarm]

/-- The dashboard as it is started, with a controller. -/
def Board.launch (settings : Settings) (wall : Int) (firstToast : Uuid) (controller : Script) :
    Except SettingsError Board := do
  let b := Board.start settings (← settings.intervals) wall firstToast
  let b := permanentViews.foldl (fun b kind => (b.ensureMounted kind).2)
    { b with script := controller }
  return b.settle

namespace BoardError

/-- The line that tells why the dashboard did not start. -/
def headline : BoardError → String
  | .settings _ => "Error: loading dashboard configuration"
  | e => "Error: " ++ e.text

/-- The cause behind the line. -/
def cause? : BoardError → Option String
  | .settings e => some e.text
  | _ => none

end BoardError

end HouseBoard
