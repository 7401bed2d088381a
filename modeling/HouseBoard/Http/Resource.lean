/-
HouseBoard.Http.Resource — the resources of the dashboard and their paths.

A path leads to a resource before any of its percent signs is looked at; the parts that a caller
chooses are decoded afterwards.
-/
import HouseBoard.Http.Percent
import HouseBoard.Http.Message

namespace HouseBoard

/-- What a path leads to.  The parts that the caller chooses are as they stand in the path. -/
inductive Resource where
  | health
  | systemHealth
  | views
  | view (route : List Char)
  | command (device : List Char)
  | notifications
  | notification (id : List Char)
  | debug
  deriving DecidableEq, Repr

namespace Resource

/-- The segments of a path. -/
def segments (path : List Char) : List (List Char) := path.splitOn '/'

/-- The resource of a path. -/
def ofPath? (path : List Char) : Option Resource :=
  match (segments path).map String.ofList with
  | ["", "health"] => some .health
  | ["", "system", "health"] => some .systemHealth
  | ["", "views"] => some .views
  | "" :: "views" :: _ =>
    let route := path.drop 7
    if route = [] then none else some (.view route)
  | ["", "devices", device, "command"] =>
    if device = "" then none else some (.command device.toList)
  | ["", "notifications"] => some .notifications
  | ["", "notifications", id] => if id = "" then none else some (.notification id.toList)
  | ["", "ui", "debug"] => some .debug
  | _ => none

/-- The methods that a resource takes, beside `HEAD` where there is `GET`. -/
def methods : Resource → List String
  | .health | .systemHealth | .views | .notifications => ["GET"]
  | .view _ => ["GET", "DELETE"]
  | .command _ => ["POST"]
  | .notification _ => ["DELETE"]
  | .debug => ["GET", "PUT"]

end Resource

end HouseBoard
