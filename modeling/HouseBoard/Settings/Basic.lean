/-
HouseBoard.Settings.Basic — what can be set.

Every setting has a value that stands when it is not given.  Settings that make no sense
together with the rest of the program are found by `Settings.fault?`, which names the first of
them in a fixed order.
-/
import HouseBoard.Liveness
import HouseBoard.Display.Comfort

namespace HouseBoard

/-! ## Sections -/

/-- Where the controller is. -/
structure GatewaySettings where
  baseUrl : String := "http://localhost:50051"
  timeoutMs : Nat := 5000
  deriving DecidableEq, Repr, Inhabited

/-- How often the views are brought up to date. -/
structure PollingSettings where
  tickMs : Nat := 1000
  pollMs : Nat := 5000
  deriving DecidableEq, Repr, Inhabited

/-- What is shown. -/
structure DisplaySettings where
  debugMode : Bool := false
  summerMonths : List Nat := SeasonPolicy.default.summerMonths
  deriving DecidableEq, Repr, Inhabited

/-- How many notifications are kept, and for how many seconds. -/
structure NotificationSettings where
  capacity : Nat := 5
  durationSecs : Nat := 3
  deriving DecidableEq, Repr, Inhabited

/-- Where the views are served, and the key that they ask for. -/
structure ServerSettings where
  listen : String := "0.0.0.0:8080"
  apiKey : Option String := none
  deriving DecidableEq, Repr, Inhabited

/-- All settings. -/
structure Settings where
  gateway : GatewaySettings := {}
  liveness : LivenessPolicy := LivenessPolicy.default
  polling : PollingSettings := {}
  display : DisplaySettings := {}
  notifications : NotificationSettings := {}
  server : ServerSettings := {}
  deriving DecidableEq, Repr, Inhabited

/-! ## Documents -/

/-- The settings of the gateway as a document. -/
def GatewaySettings.record : Record GatewaySettings where
  kinds := [String, Nat]
  fields :=
    .cons (.defaulted "base_url" .text ({} : GatewaySettings).baseUrl) <|
    .cons (.defaulted "timeout_ms" (.upTo maxSeconds) ({} : GatewaySettings).timeoutMs) .nil
  make | (baseUrl, timeoutMs, ()) => { baseUrl, timeoutMs }
  split s := (s.baseUrl, s.timeoutMs, ())

/-- The settings of the polling as a document. -/
def PollingSettings.record : Record PollingSettings where
  kinds := [Nat, Nat]
  fields :=
    .cons (.defaulted "tick_interval_ms" (.upTo maxSeconds) ({} : PollingSettings).tickMs) <|
    .cons (.defaulted "poll_interval_ms" (.upTo maxSeconds) ({} : PollingSettings).pollMs) .nil
  make | (tickMs, pollMs, ()) => { tickMs, pollMs }
  split s := (s.tickMs, s.pollMs, ())

/-- The settings of the display as a document. -/
def DisplaySettings.record : Record DisplaySettings where
  kinds := [Bool, List Nat]
  fields :=
    .cons (.defaulted "debug_mode" .flag ({} : DisplaySettings).debugMode) <|
    .cons (.defaulted "summer_months" (.listOf (.upTo 255)) ({} : DisplaySettings).summerMonths)
      .nil
  make | (debugMode, summerMonths, ()) => { debugMode, summerMonths }
  split s := (s.debugMode, s.summerMonths, ())

/-- The settings of the notifications as a document. -/
def NotificationSettings.record : Record NotificationSettings where
  kinds := [Nat, Nat]
  fields :=
    .cons (.defaulted "capacity" (.upTo maxSeconds) ({} : NotificationSettings).capacity) <|
    .cons (.defaulted "duration_secs" (.upTo maxSeconds)
      ({} : NotificationSettings).durationSecs) .nil
  make | (capacity, durationSecs, ()) => { capacity, durationSecs }
  split s := (s.capacity, s.durationSecs, ())

/-- The settings of the server as a document. -/
def ServerSettings.record : Record ServerSettings where
  kinds := [String, Option String]
  fields :=
    .cons (.defaulted "listen" .text ({} : ServerSettings).listen) <|
    .cons (.nullable "api_key" .text) .nil
  make | (listen, apiKey, ()) => { listen, apiKey }
  split s := (s.listen, s.apiKey, ())

/-- All settings as a document. -/
def Settings.record : Record Settings where
  kinds :=
    [GatewaySettings, LivenessPolicy, PollingSettings, DisplaySettings, NotificationSettings,
      ServerSettings]
  fields :=
    .cons (.defaulted "backend" GatewaySettings.record.codec {}) <|
    .cons (.defaulted "liveness" LivenessPolicy.codec LivenessPolicy.default) <|
    .cons (.defaulted "polling" PollingSettings.record.codec {}) <|
    .cons (.defaulted "ui" DisplaySettings.record.codec {}) <|
    .cons (.defaulted "notifications" NotificationSettings.record.codec {}) <|
    .cons (.defaulted "http" ServerSettings.record.codec {}) .nil
  make
    | (gateway, liveness, polling, display, notifications, server, ()) =>
      { gateway, liveness, polling, display, notifications, server }
  split s := (s.gateway, s.liveness, s.polling, s.display, s.notifications, s.server, ())

/-- Settings as documents. -/
def Settings.codec : Codec Settings := Settings.record.codec

/-! ## Faults -/

/-- A setting that makes no sense. -/
inductive SettingsFault where
  /-- A device that could never be online. -/
  | threshold (cls : DeviceClass)
  /-- A timer that would never rest. -/
  | intervals
  /-- A month outside the year. -/
  | month (number : Nat)
  /-- No room for a notification. -/
  | capacity
  deriving DecidableEq, Repr

/-- Which setting it is, and what is wrong with it. -/
def SettingsFault.text (f : SettingsFault) : String :=
  let (field, reason) := match f with
    | .threshold .caniot => ("liveness.caniot_online_threshold_secs", "must be positive")
    | .threshold .ble => ("liveness.ble_online_threshold_secs", "must be positive")
    | .intervals => ("polling", "intervals must be positive")
    | .month m => ("ui.summer_months", Digits.text m ++ " is not a month")
    | .capacity => ("notifications.capacity", "must be at least 1")
  "invalid value for " ++ field ++ ": " ++ reason

namespace Settings

/-- The first setting that makes no sense. -/
def fault? (s : Settings) : Option SettingsFault :=
  if s.liveness.caniotThreshold = 0 then some (.threshold .caniot)
  else if s.liveness.bleThreshold = 0 then some (.threshold .ble)
  else if s.polling.tickMs = 0 ∨ s.polling.pollMs = 0 then some .intervals
  else match s.display.summerMonths.find? fun m => m < 1 || 12 < m with
    | some m => some (.month m)
    | none => if s.notifications.capacity = 0 then some .capacity else none

/-- The seasons that are set. -/
def season (s : Settings) : SeasonPolicy := ⟨s.display.summerMonths⟩

end Settings

end HouseBoard
