/-
HouseBoard.Liveness — whether a device is online, and how long ago it was heard.

A device is online while the age of its last report is below a threshold of its class.  The age
is what was reported plus the seconds that have passed locally since, and stops at the largest
64-bit number.  A device that was never heard is offline, whatever else is known.
-/
import HouseBoard.Json.Record
import HouseBoard.Calendar.Timestamp

namespace HouseBoard

/-! ## Seconds -/

/-- The largest number of seconds. -/
def maxSeconds : Nat := UInt64.size - 1

/-- The sum of two numbers of seconds, at most the largest one. -/
def addSeconds (a b : Nat) : Nat := min (a + b) maxSeconds

/-- Seconds in days, hours, minutes and seconds: units in front that are zero are left
out, seconds never. -/
def humanize (seconds : Nat) : String :=
  let days := seconds / 86400
  let hours := seconds % 86400 / 3600
  let minutes := seconds % 3600 / 60
  let secs := seconds % 60
  String.ofList <|
    (if 0 < days then Digits.decimal days ++ ['j', ' '] else [])
      ++ (if 0 < days ∨ 0 < hours then Digits.decimal hours ++ ['h', ' '] else [])
      ++ (if 0 < days ∨ 0 < hours ∨ 0 < minutes
          then Digits.decimal minutes ++ ['m', ' '] else [])
      ++ Digits.decimal secs ++ ['s']

/-! ## Thresholds -/

/-- The kinds of devices that age differently. -/
inductive DeviceClass where
  | caniot
  | ble
  deriving DecidableEq, Repr, Inhabited

namespace DeviceClass

/-- The word of a class. -/
def word : DeviceClass → String
  | .caniot => "caniot"
  | .ble => "ble"

/-- Classes as words. -/
def codec : Codec DeviceClass := .word [("caniot", .caniot), ("ble", .ble)] word

end DeviceClass

/-- From which age on a device of a class is offline, in seconds. -/
structure LivenessPolicy where
  caniotThreshold : Nat
  bleThreshold : Nat
  deriving DecidableEq, Repr, Inhabited

namespace LivenessPolicy

/-- A minute, and five for radio sensors. -/
def default : LivenessPolicy := ⟨60, 300⟩

/-- The threshold of a class. -/
def threshold (p : LivenessPolicy) : DeviceClass → Nat
  | .caniot => p.caniotThreshold
  | .ble => p.bleThreshold

/-- The description of policies. -/
def record : Record LivenessPolicy where
  kinds := [Nat, Nat]
  fields :=
    .cons (.defaulted "caniot_online_threshold_secs" (.upTo maxSeconds)
      default.caniotThreshold) <|
    .cons (.defaulted "ble_online_threshold_secs" (.upTo maxSeconds) default.bleThreshold) .nil
  make | (caniot, ble, ()) => ⟨caniot, ble⟩
  split p := (p.caniotThreshold, p.bleThreshold, ())

/-- Policies as documents. -/
def codec : Codec LivenessPolicy := record.codec

end LivenessPolicy

/-! ## Samples -/

/-- What is known of a device's last report. -/
structure LivenessSample where
  lastSeenAt : Option Timestamp
  age : Nat
  threshold : Nat
  deriving DecidableEq, Repr, Inhabited

/-- The sample of a report; an age that was not reported counts as zero. -/
def LivenessSample.ofReport (lastSeenAt : Option Timestamp) (age : Option Nat)
    (cls : DeviceClass) (policy : LivenessPolicy) : LivenessSample :=
  ⟨lastSeenAt, age.getD 0, policy.threshold cls⟩

/-- How a label is worded. -/
inductive LabelStyle where
  /-- The duration alone. -/
  | minimal
  /-- The duration in a phrase. -/
  | full
  deriving DecidableEq, Repr, Inhabited

/-- Styles as words. -/
def LabelStyle.codec : Codec LabelStyle :=
  .word [("minimal", .minimal), ("full", .full)] fun
    | .minimal => "minimal"
    | .full => "full"

/-- The words for a duration. -/
def LabelStyle.label (style : LabelStyle) (seconds : Nat) : String :=
  match style with
  | .minimal => humanize seconds
  | .full => "(active " ++ humanize seconds ++ " ago)"

/-- Whether a device is online, in words, and the age that decides it. -/
structure Liveness where
  online : Bool
  label : String
  effectiveAge : Option Nat
  deriving DecidableEq, Repr

/-- The label of a device that was never heard. -/
def neverLabel : String := "never"

namespace LivenessSample

/-- The liveness of a sample some seconds after it was taken. -/
def evaluate (s : LivenessSample) (offset : Nat) (style : LabelStyle) : Liveness :=
  match s.lastSeenAt with
  | none => ⟨false, neverLabel, none⟩
  | some _ =>
    let age := addSeconds s.age offset
    ⟨decide (age < s.threshold), style.label age, some age⟩

/-- The time of the last report and the full label. -/
def badge (s : LivenessSample) (offset : Nat) : String :=
  match s.lastSeenAt with
  | none => neverLabel
  | some t => t.display ++ " " ++ (s.evaluate offset .full).label

end LivenessSample

/-- A liveness as a document. -/
def Liveness.toJson (l : Liveness) : Json :=
  .obj [("online", .bool l.online), ("label", .str l.label),
    ("effective_age_seconds", Json.ofOption Json.nat l.effectiveAge)]

/-- What a device card shows of its liveness. -/
structure LivenessView where
  online : Bool
  label : String
  badge : String
  deriving DecidableEq, Repr

/-- The view of a sample some seconds after it was taken. -/
def LivenessSample.view (s : LivenessSample) (offset : Nat) : LivenessView :=
  let l := s.evaluate offset .minimal
  ⟨l.online, l.label, s.badge offset⟩

/-- A view as a document. -/
def LivenessView.toJson (v : LivenessView) : Json :=
  .obj [("online", .bool v.online), ("label", .str v.label), ("badge", .str v.badge)]

/-! ## Tickers -/

/-- A sample that ages second by second until the next one arrives. -/
structure LivenessTicker where
  sample : LivenessSample
  offset : Nat
  deriving DecidableEq, Repr

namespace LivenessTicker

/-- A fresh sample. -/
def start (sample : LivenessSample) : LivenessTicker := ⟨sample, 0⟩

/-- One second later. -/
def tick (t : LivenessTicker) : LivenessTicker := { t with offset := addSeconds t.offset 1 }

/-- Several seconds later. -/
def ticks (t : LivenessTicker) (n : Nat) : LivenessTicker :=
  { t with offset := addSeconds t.offset n }

/-- A new sample. -/
def rebase (_ : LivenessTicker) (sample : LivenessSample) : LivenessTicker := start sample

/-- The liveness now. -/
def current (t : LivenessTicker) (style : LabelStyle) : Liveness :=
  t.sample.evaluate t.offset style

end LivenessTicker

end HouseBoard
