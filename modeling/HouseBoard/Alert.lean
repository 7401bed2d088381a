/-
HouseBoard.Alert — alerts, how severe they are and where they are shown.

Each kind of alert has one severity.  A panel of active alerts leaves out what is fine or merely
informative unless the dashboard is in debug mode; a badge on a device shows every alert.
-/
import HouseBoard.Json.Record

namespace HouseBoard

/-! ## Kinds and their classes -/

/-- What the controller reports. -/
inductive AlertKind where
  | ok
  | notification
  | warning
  | inhibited
  | error
  deriving DecidableEq, Repr, Inhabited

/-- How severe an alert is. -/
inductive Severity where
  | success
  | info
  | warning
  | error
  deriving DecidableEq, Repr, Inhabited

/-- A sign beside an alert. -/
inductive AlertIcon where
  | inhibited
  deriving DecidableEq, Repr, Inhabited

/-- The severity and the sign of an alert. -/
structure AlertClass where
  tier : Severity
  icon : Option AlertIcon
  deriving DecidableEq, Repr

namespace AlertKind

/-- The word of the payload format. -/
def word : AlertKind → String
  | .ok => "OK"
  | .notification => "NOTIFICATION"
  | .warning => "WARNING"
  | .inhibited => "INHIBITED"
  | .error => "ERROR"

/-- All words of the payload format; two kinds have a second one. -/
def words : List (String × AlertKind) :=
  [("OK", .ok), ("NOTIFICATION", .notification), ("WARNING", .warning),
    ("INHIBITED", .inhibited), ("INHIBITTED", .inhibited), ("ERROR", .error),
    ("INERROR", .error)]

/-- Kinds as words. -/
def codec : Codec AlertKind := .word words word

/-- The class of a kind. -/
def classify : AlertKind → AlertClass
  | .ok => ⟨.success, none⟩
  | .notification => ⟨.info, none⟩
  | .warning => ⟨.warning, none⟩
  | .inhibited => ⟨.warning, some .inhibited⟩
  | .error => ⟨.error, none⟩

/-- Whether a panel of active alerts shows the kind. -/
def isDisplayed (kind : AlertKind) (debug : Bool) : Bool :=
  match kind with
  | .ok | .notification => debug
  | .warning | .inhibited | .error => true

end AlertKind

/-- The word of a severity. -/
def Severity.word : Severity → String
  | .success => "success"
  | .info => "info"
  | .warning => "warning"
  | .error => "error"

/-- The word of a sign. -/
def AlertIcon.word : AlertIcon → String
  | .inhibited => "inhibited"

/-- A class as a document. -/
def AlertClass.toJson (c : AlertClass) : Json :=
  .obj [("tier", .str c.tier.word), ("icon", Json.ofOption (fun i => .str i.word) c.icon)]

/-! ## Alerts -/

/-- An alert of a device. -/
structure Alert where
  kind : AlertKind
  message : String
  description : Option String
  deriving DecidableEq, Repr, Inhabited

/-- The description of alerts; a missing description is not written. -/
def Alert.record : Record Alert where
  kinds := [AlertKind, String, Option String]
  fields :=
    .cons (.required "kind" AlertKind.codec) <|
    .cons (.required "message" .text) <|
    .cons (.omittable "description" .text) .nil
  make | (kind, message, description, ()) => { kind, message, description }
  split a := (a.kind, a.message, a.description, ())

/-- Alerts as documents. -/
def Alert.codec : Codec Alert := Alert.record.codec

/-! ## Badges -/

/-- An alert ready to be shown. -/
structure AlertBadge where
  tier : Severity
  icon : Option AlertIcon
  message : String
  description : Option String
  closable : Bool
  /-- The view where one can act on it. -/
  navigateTo : Option String
  deriving DecidableEq, Repr

/-- The badge of an alert. -/
def Alert.badge (a : Alert) (closable : Bool) (navigateTo : Option String) : AlertBadge where
  tier := a.kind.classify.tier
  icon := a.kind.classify.icon
  message := a.message
  description := a.description
  closable
  navigateTo

/-- A badge as a document; what is missing is left out. -/
def AlertBadge.toJson (b : AlertBadge) : Json :=
  .obj <| [("tier", .str b.tier.word)]
    ++ Json.optional "icon" (b.icon.map fun i => .str i.word)
    ++ [("message", .str b.message)]
    ++ Json.optional "description" (b.description.map .str)
    ++ [("closable", .bool b.closable)]
    ++ Json.optional "navigate_to" (b.navigateTo.map .str)

/-! ## Panels -/

/-- An alert that may be shown in a panel, and the view of its owner. -/
structure AlertEntry where
  alert : Alert
  navigateTo : Option String
  deriving DecidableEq, Repr

/-- The active alerts of a view. -/
structure AlertPanel where
  alerts : List AlertBadge
  deriving DecidableEq, Repr

namespace AlertPanel

/-- The panel of those entries that are displayed, in their order; none can be closed. -/
def collect (entries : List AlertEntry) (debug : Bool) : AlertPanel where
  alerts := (entries.filter fun e => e.alert.kind.isDisplayed debug).map fun e =>
    e.alert.badge false e.navigateTo

/-- A panel as a document. -/
def toJson (p : AlertPanel) : Json := .obj [("alerts", Json.ofList AlertBadge.toJson p.alerts)]

end AlertPanel

end HouseBoard
