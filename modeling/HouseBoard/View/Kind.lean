/-
HouseBoard.View.Kind — the views and their routes.

Each view has one route; the alarm and the devices can be named in other ways too, which lead
to the same view.
-/
import HouseBoard.Payload.Device

namespace HouseBoard

/-- A view of the dashboard. -/
inductive ViewKind where
  | home
  | ble
  | garage
  | heaters
  | alarm
  | device (did : DeviceRef)
  deriving DecidableEq, Repr, Inhabited

namespace ViewKind

/-- What the routes of devices begin with. -/
def deviceRoute : List Char := "devices/".toList

/-- The route of a view. -/
def route : ViewKind → String
  | .home => "home"
  | .ble => "ble"
  | .garage => "garage"
  | .heaters => "heaters"
  | .alarm => "alarm"
  | .device did => "devices/" ++ did.text

/-- The device of a route, if it is one of a device. -/
def deviceOfRoute? (name : String) : Option ViewKind :=
  if deviceRoute.isPrefixOf name.toList then
    (DeviceRef.ofChars? (name.toList.drop deviceRoute.length)).map .device
  else none

/-- The view of a route. -/
def ofRoute? (name : String) : Option ViewKind :=
  match name with
  | "home" => some .home
  | "ble" => some .ble
  | "garage" => some .garage
  | "heaters" => some .heaters
  | "alarm" => some .alarm
  | "alarms" => some .alarm
  | name => deviceOfRoute? name

end ViewKind

end HouseBoard
