/-
HouseBoard.Display.Comfort — comfort scales.

A temperature falls into one of six tiers of its domain, each with a colour and an icon; in
summer a fixed offset is taken off first.  A battery level falls into one of five.  Which months
are summer is a matter of configuration.
-/
import HouseBoard.Display.Color
import HouseBoard.Calendar.Date

namespace HouseBoard

/-! ## Temperatures -/

/-- Where a temperature is measured. -/
inductive Domain where
  | indoor
  | outdoor
  deriving DecidableEq, Repr, Inhabited

/-- The icon of a temperature. -/
inductive ComfortIcon where
  | snow
  | low
  | half
  | high
  | sun
  deriving DecidableEq, Repr, Inhabited

/-- The word of an icon. -/
def ComfortIcon.word : ComfortIcon → String
  | .snow => "thermometer_snow"
  | .low => "thermometer_low"
  | .half => "thermometer_half"
  | .high => "thermometer_high"
  | .sun => "thermometer_sun"

/-- A tier of a scale: its place, which rises with the temperature, its colour and its icon. -/
structure ComfortTier where
  index : Nat
  color : Color
  icon : ComfortIcon
  deriving DecidableEq, Repr

/-- A step of a scale: the tier of what lies below a bound. -/
structure ComfortStep where
  below : Int
  color : Color
  icon : ComfortIcon
  deriving Repr

namespace Domain

/-- The word of a domain. -/
def word : Domain → String
  | .indoor => "indoor"
  | .outdoor => "outdoor"

/-- The domains by their words. -/
def words : List (String × Domain) := [("indoor", .indoor), ("outdoor", .outdoor)]

/-- The steps of a scale by rising bounds. -/
def steps : Domain → List ComfortStep
  | .outdoor =>
    [⟨0, ⟨0xaa, 0xf7, 0xff⟩, .snow⟩, ⟨14, ⟨0x3f, 0xa0, 0xff⟩, .low⟩,
      ⟨22, ⟨0x2c, 0xde, 0x73⟩, .half⟩, ⟨30, ⟨0xff, 0xad, 0x72⟩, .high⟩,
      ⟨33, ⟨0xf7, 0x6d, 0x5e⟩, .sun⟩]
  | .indoor =>
    [⟨15, ⟨0x3f, 0xa0, 0xff⟩, .snow⟩, ⟨19, ⟨0xaa, 0xf7, 0xff⟩, .low⟩,
      ⟨22, ⟨0x2c, 0xde, 0x73⟩, .half⟩, ⟨23, ⟨0xff, 0xad, 0x72⟩, .high⟩,
      ⟨25, ⟨0xf7, 0x6d, 0x5e⟩, .sun⟩]

/-- The tier above all steps. -/
def top (_ : Domain) : Color × ComfortIcon := (⟨0xd8, 0x26, 0x32⟩, .sun)

/-- What summer takes off a temperature. -/
def summerOffset : Domain → Nat
  | .indoor => 3
  | .outdoor => 6

end Domain

/-- The tier of the first step that a temperature lies below, the steps counted from `index`. -/
def tierAmong (value : Binary64) (top : Color × ComfortIcon) :
    Nat → List ComfortStep → ComfortTier
  | index, [] => ⟨index, top.1, top.2⟩
  | index, s :: rest =>
    if value.below s.below 1 then ⟨index, s.color, s.icon⟩
    else tierAmong value top (index + 1) rest

/-- The tier of a temperature. -/
def temperatureTier (value : Binary64) (domain : Domain) (seasonAdjusted : Bool) :
    ComfortTier :=
  let effective := if seasonAdjusted then value.addInt (-domain.summerOffset) else value
  tierAmong effective domain.top 0 domain.steps

/-- A tier as a document. -/
def ComfortTier.toJson (t : ComfortTier) : Json :=
  .obj [("index", Json.nat t.index), ("color", .str t.color.text), ("icon", .str t.icon.word)]

/-! ## Batteries -/

/-- The icon of a battery. -/
inductive BatteryIcon where
  | empty
  | quarter
  | half
  | threeQuarters
  | full
  deriving DecidableEq, Repr, Inhabited

namespace BatteryIcon

/-- The word of an icon. -/
def word : BatteryIcon → String
  | .empty => "empty"
  | .quarter => "quarter"
  | .half => "half"
  | .threeQuarters => "three_quarters"
  | .full => "full"

/-- The icon of a level in percent: the nearest quarter. -/
def ofLevel (level : Binary64) : BatteryIcon :=
  if level.below 25 2 then .empty
  else if level.below 75 2 then .quarter
  else if level.below 125 2 then .half
  else if level.below 175 2 then .threeQuarters
  else .full

end BatteryIcon

/-! ## Seasons -/

/-- The months, from 1 to 12, that count as summer. -/
structure SeasonPolicy where
  summerMonths : List Nat
  deriving DecidableEq, Repr

namespace SeasonPolicy

/-- May to October. -/
def default : SeasonPolicy := ⟨[5, 6, 7, 8, 9, 10]⟩

/-- Whether a date is in summer. -/
def isSummer (p : SeasonPolicy) (date : Date) : Bool := p.summerMonths.contains date.month

/-- The months of the year that are summer, in order. -/
def summer (p : SeasonPolicy) : List Nat := (List.range' 1 12).filter p.summerMonths.contains

end SeasonPolicy

end HouseBoard
