/-
HouseBoard.Settings.File — settings as they are written in a file.

The file is YAML.  A section or setting that is not given keeps its standing value, one that is
given twice is a fault, and names that are not known are passed over.  A file that is missing or
blank sets nothing, and neither does one that is there but cannot be looked at; one that can be
looked at is read, and there are no settings if it cannot be read or understood.
-/
import HouseBoard.Settings.Basic
import HouseBoard.Text.Space
import HouseBoard.Yaml.Value

namespace HouseBoard

open Yaml

/-! ## Sections -/

/-- The section of the gateway. -/
def GatewaySettings.reader : Reader GatewaySettings :=
  .ofEntries
    [.of "base_url" .text fun baseUrl s => { s with baseUrl },
      .of "timeout_ms" (.upTo maxSeconds) fun timeoutMs s => { s with timeoutMs }]
    {}

/-- The section of the thresholds. -/
def LivenessPolicy.reader : Reader LivenessPolicy :=
  .ofEntries
    [.of "caniot_online_threshold_secs" (.upTo maxSeconds) fun caniotThreshold s =>
        { s with caniotThreshold },
      .of "ble_online_threshold_secs" (.upTo maxSeconds) fun bleThreshold s =>
        { s with bleThreshold }]
    LivenessPolicy.default

/-- The section of the polling. -/
def PollingSettings.reader : Reader PollingSettings :=
  .ofEntries
    [.of "tick_interval_ms" (.upTo maxSeconds) fun tickMs s => { s with tickMs },
      .of "poll_interval_ms" (.upTo maxSeconds) fun pollMs s => { s with pollMs }]
    {}

/-- The section of the display. -/
def DisplaySettings.reader : Reader DisplaySettings :=
  .ofEntries
    [.of "debug_mode" .flag fun debugMode s => { s with debugMode },
      .of "summer_months" (.listOf (.upTo 255)) fun summerMonths s => { s with summerMonths }]
    {}

/-- The section of the notifications. -/
def NotificationSettings.reader : Reader NotificationSettings :=
  .ofEntries
    [.of "capacity" (.upTo maxSeconds) fun capacity s => { s with capacity },
      .of "duration_secs" (.upTo maxSeconds) fun durationSecs s => { s with durationSecs }]
    {}

/-- The section of the server. -/
def ServerSettings.reader : Reader ServerSettings :=
  .ofEntries
    [.of "listen" .text fun listen s => { s with listen },
      .of "api_key" .optionalText fun apiKey s => { s with apiKey }]
    {}

/-- All sections. -/
def Settings.reader : Reader Settings :=
  .ofEntries
    [.of "backend" GatewaySettings.reader fun gateway s => { s with gateway },
      .of "liveness" LivenessPolicy.reader fun liveness s => { s with liveness },
      .of "polling" PollingSettings.reader fun polling s => { s with polling },
      .of "ui" DisplaySettings.reader fun display s => { s with display },
      .of "notifications" NotificationSettings.reader fun notifications s =>
        { s with notifications },
      .of "http" ServerSettings.reader fun server s => { s with server }]
    {}

/-! ## Files -/

/-- Why there are no settings. -/
inductive SettingsError where
  /-- The file of a path cannot be read as text. -/
  | unreadable (path reason : String)
  /-- The text is no YAML, or does not fit the settings. -/
  | malformed
  /-- A setting makes no sense. -/
  | invalid (fault : SettingsFault)
  deriving DecidableEq, Repr

/-- The words for an error. -/
def SettingsError.text : SettingsError → String
  | .unreadable path reason => "failed to read " ++ path ++ ": " ++ reason
  | .malformed => "invalid YAML"
  | .invalid fault => fault.text

/-- What stands where a file is looked for. -/
inductive SettingsFile where
  | absent
  /-- A file that is there, but cannot be looked at: a directory on its path may not be
  searched, or the path is too long or leads in a circle. -/
  | hidden
  /-- Something that can be looked at but not read, and why. -/
  | closed (reason : String)
  | bytes (content : ByteArray)

/-- Something that is no file. -/
def SettingsFile.directory : SettingsFile := .closed "Is a directory (os error 21)"

namespace Settings

/-- The settings of a text. -/
def ofText (text : String) : Except SettingsError Settings :=
  if Space.isBlank text then .ok {}
  else match Settings.reader.readText? {} text with
    | none => .error .malformed
    | some s => match s.fault? with
      | some fault => .error (.invalid fault)
      | none => .ok s

/-- The settings of what stands at a path.  What cannot be looked at is taken for missing, so
that the standing settings take its place without a word. -/
def ofFile (path : String) : SettingsFile → Except SettingsError Settings
  | .absent => .ok {}
  | .hidden => .ok {}
  | .closed reason => .error (.unreadable path reason)
  | .bytes content =>
    match String.fromUTF8? content with
    | some text => ofText text
    | none => .error (.unreadable path "stream did not contain valid UTF-8")

end Settings

end HouseBoard
