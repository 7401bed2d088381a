/-
HouseBoard.Payload.Command — what can be asked of a device.
-/
import HouseBoard.Payload.Controller

namespace HouseBoard

/-- The doors of the garage. -/
inductive GarageDoor where
  | left
  | right
  | gate
  deriving DecidableEq, Repr, Inhabited

/-- The word of a door. -/
def GarageDoor.word : GarageDoor → String
  | .left => "left"
  | .right => "right"
  | .gate => "gate"

/-- What a light is to do. -/
inductive LightAction where
  | none
  | on
  | off
  | toggle
  deriving DecidableEq, Repr, Inhabited

/-- The word of an action. -/
def LightAction.word : LightAction → String
  | .none => "none"
  | .on => "on"
  | .off => "off"
  | .toggle => "toggle"

/-- A command to a device. -/
inductive Command where
  | garage (door : GarageDoor)
  | heater (index : Nat) (mode : HeaterMode)
  | alarm (enabled : Bool)
  | alarmLights (south east : LightAction)
  | reboot
  deriving DecidableEq, Repr, Inhabited

namespace Command

/-! ## Fields of the alternatives -/

/-- A light action inside a command. -/
def lightCodec : Codec LightAction :=
  .taggedWord [("none", .none), ("on", .on), ("off", .off), ("toggle", .toggle)]
    LightAction.word

/-- The field of a garage command. -/
def garageFields : Fields [GarageDoor] :=
  .cons (.required "door"
    (.taggedWord [("left", .left), ("right", .right), ("gate", .gate)] GarageDoor.word)) .nil

/-- The fields of a heater command. -/
def heaterFields : Fields [Nat, HeaterMode] :=
  .cons (.required "index" (.upTo (UInt64.size - 1))) <|
  .cons (.required "mode" (.taggedWord HeaterMode.words HeaterMode.word)) .nil

/-- The field of an alarm command. -/
def alarmFields : Fields [Bool] := .cons (.required "enabled" .flag) .nil

/-- The fields of a light command. -/
def lightFields : Fields [LightAction, LightAction] :=
  .cons (.required "south" lightCodec) <| .cons (.required "east" lightCodec) .nil

/-! ## Documents -/

/-- The alternatives by tag. -/
def variants : List (Variant Command) :=
  [.ofFields "garage" garageFields (fun (door, ()) => .garage door),
    .ofFields "heater" heaterFields (fun (index, mode, ()) => .heater index mode),
    .ofFields "alarm" alarmFields (fun (enabled, ()) => .alarm enabled),
    .ofFields "alarm_lights" lightFields (fun (south, east, ()) => .alarmLights south east),
    .plain "reboot" .reboot]

/-- A command as a document. -/
def toJson : Command → Json
  | .garage door => .tagged "garage" (garageFields.members (door, ()))
  | .heater index mode => .tagged "heater" (heaterFields.members (index, mode, ()))
  | .alarm enabled => .tagged "alarm" (alarmFields.members (enabled, ()))
  | .alarmLights south east => .tagged "alarm_lights" (lightFields.members (south, east, ()))
  | .reboot => .tagged "reboot" []

/-- Commands as documents. -/
def codec : Codec Command := ⟨Variant.read variants, toJson⟩

end Command

end HouseBoard
