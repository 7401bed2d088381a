/-
HouseBoard.Proofs.Payloads — payloads are read liberally and written in one form,
which is read back.

Section 1 adds the text forms of colours, and Section 2 goes through the payload types: the
codec of each one is faithful, since its parts are.  Section 3 concludes for texts: whatever
text a payload was read from, the text that is written for it holds the same payload.
-/
import HouseBoard.Proofs.Codecs
import HouseBoard.Proofs.Timestamps
import HouseBoard.Payload.Ble
import HouseBoard.Payload.Command
import HouseBoard.Rpc
import HouseBoard.Settings.Basic

namespace HouseBoard

/-! ## Section 1 — colours -/

theorem Digits.hexDigit_ne_plus {n : Nat} (h : n < 16) : hexDigit n ≠ '+' := by
  revert n
  decide

theorem Color.ofNat_join (r g b : UInt8) :
    Color.ofNat ((r.toNat * 256 + g.toNat) * 256 + b.toNat) = ⟨r, g, b⟩ := by
  have hr := r.toNat_lt
  have hg := g.toNat_lt
  have hb := b.toNat_lt
  have hchannel {n : Nat} {c : UInt8} (h : n % 256 = c.toNat) : UInt8.ofNat n = c := by
    refine UInt8.toNat_inj.mp ?_
    rw [UInt8.toNat_ofNat']
    exact h
  rw [Color.ofNat, Color.mk.injEq]
  exact ⟨hchannel (by omega), hchannel (by omega), hchannel (by omega)⟩

/-- A colour is read back from its text. -/
theorem Color.ofText?_text (c : Color) : Color.ofText? c.text = some c := by
  obtain ⟨r, g, b⟩ := c
  have hdigits : Color.dropHash (Color.text ⟨r, g, b⟩).toList =
      Digits.hexPair r.toNat ++ (Digits.hexPair g.toNat ++ (Digits.hexPair b.toNat ++ [])) := by
    simp [Color.text, Color.dropHash]
  have hplus : Digits.hexDigit (r.toNat / 16) ≠ '+' :=
    Digits.hexDigit_ne_plus (by have := r.toNat_lt; omega)
  have hread : Digits.readPlus? 16 (Color.dropHash (Color.text ⟨r, g, b⟩).toList) =
      some ((r.toNat * 256 + g.toNat) * 256 + b.toNat) := by
    rw [hdigits]
    unfold Digits.readPlus?
    split
    · rename_i heq
      exact absurd (List.cons.inj heq).1 hplus
    · change Digits.extend? 16 0 _ = _
      rw [Digits.extend?_hexPair r.toNat_lt, Digits.extend?_hexPair g.toNat_lt,
        Digits.extend?_hexPair b.toNat_lt, Digits.extend?, Nat.zero_mul, Nat.zero_add]
  have hlength : (Color.dropHash (Color.text ⟨r, g, b⟩).toList).length = 6 := by
    rw [hdigits]
    rfl
  unfold Color.ofText?
  dsimp only
  rw [if_pos hlength, hread, Option.map_some, Color.ofNat_join]

/-! ## Section 2 — payload types -/

open Codec

variable {room : Nat}

theorem Color.faithful : Color.codec.Faithful room :=
  faithful_spelled fun _ c _ => c.ofText?_text

theorem Timestamp.faithful : Timestamp.codec.Faithful room :=
  faithful_spelled fun _ _ => Timestamp.ofText?_text

theorem AlertKind.faithful : AlertKind.codec.Faithful room :=
  faithful_word (by unfold Spells; decide)

theorem RpcCode.faithful : RpcCode.codec.Faithful room :=
  faithful_word (by unfold Spells; decide)

theorem DoorState.faithful : DoorState.codec.Faithful room :=
  faithful_word (by unfold Spells; decide)

theorem HeaterMode.faithful : HeaterMode.codec.Faithful room :=
  faithful_word (by unfold Spells; decide)

/-- A device number is a number of at most 255. -/
theorem DeviceRef.faithful : DeviceRef.codec.Faithful room := by
  intro v d _ _
  obtain ⟨number⟩ := d
  have hkeep : (upTo 255).Keeps room number.toNat :=
    keeps_upTo (by decide) (by have := number.toNat_lt; omega)
  refine ⟨map_eq_ok_iff.mpr ⟨number.toNat, hkeep.read, ?_⟩, hkeep.legible,
    hkeep.sound, hkeep.depth⟩
  rw [UInt8.ofNat_toNat]

theorem Alert.lawful : Alert.record.Lawful := ⟨by decide, fun _ => rfl⟩

theorem Alert.faithful : Alert.codec.Faithful (room + 1) :=
  Alert.lawful.faithful
    ⟨Field.faithful_required AlertKind.faithful, Field.faithful_required faithful_text,
      Field.faithful_omittable faithful_text nofun, trivial⟩

theorem MeasurementKind.lawful (variant : Variant MeasurementKind)
    (hvariant : variant ∈ MeasurementKind.variants) :
    Variant.Lawful MeasurementKind.variants MeasurementKind.toJson room variant := by
  simp only [MeasurementKind.variants, List.mem_cons, List.not_mem_nil, or_false] at hvariant
  rcases hvariant with rfl | rfl | rfl
  · exact .ofFields (by decide)
      ⟨Field.faithful_required (faithful_taggedWord (by unfold Spells; decide)), trivial⟩ rfl
      fun _ => rfl
  · exact .ofFields (by decide) trivial rfl fun _ => rfl
  · exact .ofFields (by decide) trivial rfl fun _ => rfl

theorem MeasurementKind.faithful : MeasurementKind.codec.Faithful (room + 1) :=
  Variant.faithful MeasurementKind.lawful

theorem Measurement.lawful : Measurement.record.Lawful := ⟨by decide, fun _ => rfl⟩

theorem Measurement.faithful : Measurement.codec.Faithful (room + 2) :=
  Measurement.lawful.faithful
    ⟨Field.faithful_required faithful_text, Field.faithful_required MeasurementKind.faithful,
      Field.faithful_nullable faithful_real nofun, trivial⟩

theorem seconds_faithful : (upTo maxSeconds).Faithful room := faithful_upTo (by decide)

theorem DeviceState.lawful : DeviceState.record.Lawful := ⟨by decide, fun _ => rfl⟩

theorem DeviceState.faithful : DeviceState.codec.Faithful (room + 4) :=
  DeviceState.lawful.faithful
    ⟨Field.faithful_required faithful_text, Field.faithful_nullable DeviceRef.faithful nofun,
      Field.faithful_nullable faithful_text nofun,
      Field.faithful_nullable Timestamp.faithful nofun, Field.faithful_nullable seconds_faithful
        nofun, Field.faithful_nullable Alert.faithful nofun,
      Field.faithful_defaulted (faithful_listOf Measurement.faithful)
        (keeps_listOf nofun), trivial⟩

theorem AlarmState.lawful : AlarmState.record.Lawful := ⟨by decide, fun _ => rfl⟩

theorem AlarmState.faithful : AlarmState.codec.Faithful (room + 5) :=
  have flag {name : String} {value : Bool} :
      (Field.defaulted name .flag value).Faithful (room + 4) :=
    Field.faithful_defaulted faithful_flag (keeps_flag value)
  AlarmState.lawful.faithful
    ⟨Field.faithful_required DeviceState.faithful, Field.faithful_required faithful_flag, flag,
      flag, flag, flag, flag, flag, Field.faithful_nullable Timestamp.faithful nofun,
      Field.faithful_defaulted (faithful_upTo (by decide))
        (keeps_upTo (by decide) (by decide)), trivial⟩

theorem DoorStatus.lawful : DoorStatus.record.Lawful := ⟨by decide, fun _ => rfl⟩

theorem DoorStatus.faithful : DoorStatus.codec.Faithful (room + 1) :=
  DoorStatus.lawful.faithful
    ⟨Field.faithful_required DoorState.faithful,
      Field.faithful_nullable (faithful_upTo (by decide)) nofun, trivial⟩

theorem GarageState.lawful : GarageState.record.Lawful := ⟨by decide, fun _ => rfl⟩

theorem GarageState.faithful : GarageState.codec.Faithful (room + 5) :=
  have still : DoorStatus.codec.Keeps (room + 4) ⟨.unknown, none⟩ :=
    DoorStatus.faithful (DoorStatus.codec.write ⟨.unknown, none⟩)
      _ (Json.sound_of_numbers_nil rfl) rfl
  GarageState.lawful.faithful
    ⟨Field.faithful_required DeviceState.faithful,
      Field.faithful_defaulted DoorStatus.faithful still,
      Field.faithful_defaulted DoorStatus.faithful still, Field.faithful_defaulted
        DoorState.faithful (keeps_of_numbers_nil rfl rfl rfl rfl), trivial⟩

theorem HeaterState.lawful : HeaterState.record.Lawful := ⟨by decide, fun _ => rfl⟩

theorem HeaterState.faithful : HeaterState.codec.Faithful (room + 5) :=
  HeaterState.lawful.faithful
    ⟨Field.faithful_required DeviceState.faithful,
      Field.faithful_required (faithful_listOf HeaterMode.faithful),
      Field.faithful_defaulted faithful_flag (keeps_flag false), trivial⟩

theorem BleDevice.lawful : BleDevice.record.Lawful := ⟨by decide, fun _ => rfl⟩

theorem BleDevice.faithful : BleDevice.codec.Faithful (room + 2) :=
  have reading {name : String} : (Field.nullable name .real).Faithful (room + 1) :=
    Field.faithful_nullable faithful_real nofun
  BleDevice.lawful.faithful
    ⟨Field.faithful_required faithful_text, Field.faithful_required faithful_text,
      Field.faithful_nullable Timestamp.faithful nofun,
      Field.faithful_nullable seconds_faithful nofun,
      Field.faithful_nullable Alert.faithful nofun, reading, reading, reading, reading,
      Field.faithful_nullable (faithful_between (by decide) (by decide)) nofun,
      Field.faithful_nullable (faithful_upTo (by decide)) nofun, trivial⟩

theorem BleDeviceList.lawful : BleDeviceList.record.Lawful := ⟨by decide, fun _ => rfl⟩

theorem BleDeviceList.faithful : BleDeviceList.codec.Faithful (room + 4) :=
  BleDeviceList.lawful.faithful
    ⟨Field.faithful_required (faithful_listOf BleDevice.faithful),
      Field.faithful_nullable Alert.faithful nofun, trivial⟩

theorem Command.lawful (variant : Variant Command) (hvariant : variant ∈ Command.variants) :
    Variant.Lawful Command.variants Command.toJson room variant := by
  have light {name : String} : (Field.required name lightCodec).Faithful room :=
    Field.faithful_required (faithful_taggedWord (by unfold Spells; decide))
  simp only [Command.variants, List.mem_cons, List.not_mem_nil, or_false] at hvariant
  rcases hvariant with rfl | rfl | rfl | rfl | rfl
  · exact .ofFields (by decide)
      ⟨Field.faithful_required (faithful_taggedWord (by unfold Spells; decide)), trivial⟩ rfl
      fun _ => rfl
  · exact .ofFields (by decide)
      ⟨Field.faithful_required seconds_faithful,
        Field.faithful_required (faithful_taggedWord (by unfold Spells; decide)), trivial⟩
      rfl fun _ => rfl
  · exact .ofFields (by decide) ⟨Field.faithful_required faithful_flag, trivial⟩ rfl fun _ =>
      rfl
  · exact .ofFields (by decide) ⟨light, light, trivial⟩ rfl fun _ => rfl
  · exact .ofFields (by decide) trivial rfl fun _ => rfl

theorem Command.faithful : Command.codec.Faithful (room + 1) := Variant.faithful Command.lawful

/-! ### Settings -/

/-- A record that may be left out as a whole keeps what is read from an object
without members. -/
theorem keeps_of_read_empty {σ : Type} {codec : Codec σ} (h : codec.Faithful room) {x : σ}
    (hread : codec.read (.obj []) = .ok x) : codec.Keeps room x :=
  h (.obj []) x (Json.sound_of_numbers_nil rfl) hread

theorem Field.faithful_seconds {name : String} {n : Nat} (h : n ≤ maxSeconds) :
    (Field.defaulted name (.upTo maxSeconds) n).Faithful room :=
  Field.faithful_defaulted seconds_faithful (keeps_upTo (by decide) h)

theorem LivenessPolicy.lawful : LivenessPolicy.record.Lawful := ⟨by decide, fun _ => rfl⟩

theorem LivenessPolicy.faithful : LivenessPolicy.codec.Faithful (room + 1) :=
  LivenessPolicy.lawful.faithful
    ⟨Field.faithful_seconds (by decide), Field.faithful_seconds (by decide), trivial⟩

theorem GatewaySettings.lawful : GatewaySettings.record.Lawful := ⟨by decide, fun _ => rfl⟩

theorem GatewaySettings.faithful : GatewaySettings.record.codec.Faithful (room + 1) :=
  GatewaySettings.lawful.faithful
    ⟨Field.faithful_defaulted faithful_text (keeps_text _),
      Field.faithful_seconds (by decide), trivial⟩

theorem PollingSettings.lawful : PollingSettings.record.Lawful := ⟨by decide, fun _ => rfl⟩

theorem PollingSettings.faithful : PollingSettings.record.codec.Faithful (room + 1) :=
  PollingSettings.lawful.faithful
    ⟨Field.faithful_seconds (by decide), Field.faithful_seconds (by decide), trivial⟩

theorem DisplaySettings.lawful : DisplaySettings.record.Lawful := ⟨by decide, fun _ => rfl⟩

theorem DisplaySettings.faithful : DisplaySettings.record.codec.Faithful (room + 2) :=
  have months : (listOf (upTo 255)).Keeps (room + 1) ({} : DisplaySettings).summerMonths :=
    keeps_listOf fun n hn => keeps_upTo (by decide) (by revert n; decide)
  DisplaySettings.lawful.faithful
    ⟨Field.faithful_defaulted faithful_flag (keeps_flag _),
      Field.faithful_defaulted (faithful_listOf (faithful_upTo (by decide))) months, trivial⟩

theorem NotificationSettings.lawful : NotificationSettings.record.Lawful :=
  ⟨by decide, fun _ => rfl⟩

theorem NotificationSettings.faithful : NotificationSettings.record.codec.Faithful (room + 1) :=
  NotificationSettings.lawful.faithful
    ⟨Field.faithful_seconds (by decide), Field.faithful_seconds (by decide), trivial⟩

theorem ServerSettings.lawful : ServerSettings.record.Lawful := ⟨by decide, fun _ => rfl⟩

theorem ServerSettings.faithful : ServerSettings.record.codec.Faithful (room + 1) :=
  ServerSettings.lawful.faithful
    ⟨Field.faithful_defaulted faithful_text (keeps_text _),
      Field.faithful_nullable faithful_text nofun, trivial⟩

theorem Settings.lawful : Settings.record.Lawful := ⟨by decide, fun _ => rfl⟩

theorem Settings.faithful : Settings.codec.Faithful (room + 3) :=
  have part {σ : Type} {codec : Codec σ} {name : String} {x : σ} (h : codec.Faithful (room + 2))
      (hread : codec.read (.obj []) = .ok x) :
      (Field.defaulted name codec x).Faithful (room + 2) :=
    Field.faithful_defaulted h (keeps_of_read_empty h hread)
  Settings.lawful.faithful
    ⟨part GatewaySettings.faithful rfl, part LivenessPolicy.faithful rfl,
      part PollingSettings.faithful rfl, part DisplaySettings.faithful rfl,
      part NotificationSettings.faithful rfl, part ServerSettings.faithful rfl, trivial⟩

/-! ## Section 3 — texts of payloads -/

/-- The types of payloads. -/
inductive PayloadType where
  | deviceState
  | measurement
  | alarmState
  | garageState
  | doorStatus
  | heaterState
  | bleDevice
  | bleList
  | command
  | alert
  | alertKind
  | color
  | deviceRef
  | policy
  | settings
  | rpcCode
  deriving DecidableEq, Repr

namespace PayloadType

/-- The payloads of a type. -/
@[reducible] def Carrier : PayloadType → Type
  | deviceState => DeviceState
  | measurement => Measurement
  | alarmState => AlarmState
  | garageState => GarageState
  | doorStatus => DoorStatus
  | heaterState => HeaterState
  | bleDevice => BleDevice
  | bleList => BleDeviceList
  | command => Command
  | alert => Alert
  | alertKind => AlertKind
  | color => Color
  | deviceRef => DeviceRef
  | policy => LivenessPolicy
  | settings => Settings
  | rpcCode => RpcCode

/-- The codec of a type. -/
def codec : (p : PayloadType) → Codec p.Carrier
  | deviceState => DeviceState.codec
  | measurement => Measurement.codec
  | alarmState => AlarmState.codec
  | garageState => GarageState.codec
  | doorStatus => DoorStatus.codec
  | heaterState => HeaterState.codec
  | bleDevice => BleDevice.codec
  | bleList => BleDeviceList.codec
  | command => Command.codec
  | alert => Alert.codec
  | alertKind => AlertKind.codec
  | color => Color.codec
  | deviceRef => DeviceRef.codec
  | policy => LivenessPolicy.codec
  | settings => Settings.codec
  | rpcCode => RpcCode.codec

/-- No payload is deeper than seven levels. -/
theorem faithful (p : PayloadType) : p.codec.Faithful 7 := by
  cases p with
  | deviceState => exact DeviceState.faithful
  | measurement => exact Measurement.faithful
  | alarmState => exact AlarmState.faithful
  | garageState => exact GarageState.faithful
  | doorStatus => exact DoorStatus.faithful
  | heaterState => exact HeaterState.faithful
  | bleDevice => exact BleDevice.faithful
  | bleList => exact BleDeviceList.faithful
  | command => exact Command.faithful
  | alert => exact Alert.faithful
  | alertKind => exact AlertKind.faithful
  | color => exact Color.faithful
  | deviceRef => exact DeviceRef.faithful
  | policy => exact LivenessPolicy.faithful
  | settings => exact Settings.faithful
  | rpcCode => exact RpcCode.faithful

/-- Whatever text a payload was read from, its serialization is JSON that holds the same
payload, and to serialize that one gives the same document again.  The reader of numbers rounds
twice, so of each floating point value in the payload it is assumed that the text written for it
is read as that value. -/
theorem readText_write (p : PayloadType) {text : String} {x : p.Carrier}
    (hread : p.codec.readText text = .ok x)
    (hreals : ∀ r, .real r ∈ (p.codec.write x).numbers → (Json.Number.real r).ReadsBack) :
    p.codec.readText (p.codec.write x).text = .ok x ∧
      Json.read (p.codec.write x).text = ⟨p.codec.write x, true⟩ ∧
      (p.codec.readText (p.codec.write x).text).map p.codec.write =
        .ok (Json.read (p.codec.write x).text).root := by
  have hroot : p.codec.read (Json.read text).root = .ok x := (readText_eq_ok_iff.mp hread).1
  obtain ⟨hdocument, hback⟩ :=
    (p.faithful _ x (Json.read_sound text) hroot).text (by decide) hreals
  refine ⟨hback, hdocument, ?_⟩
  rw [hback, hdocument]
  rfl

/-- A temperature of eighteen and a half degrees. -/
def mild : Binary64 := .ofRatio false 37 2

/-- An alarm whose device was heard in the last second of 2016 and has an alert and
a measurement. -/
def relayed : AlarmState where
  device :=
    { name := "garage", lastSeenAt := some ⟨⟨2016, 12, 31⟩, 23, 59, 59, 999999999, 0⟩,
      lastSeenFromNow := some 5
      alert := some ⟨.error, "m", none⟩
      readings := [⟨"out", .temperature .outdoor, some mild⟩] }
  enabled := true

/-- The same report in arrays, with a leap second, a negative offset of zero and the second word
of an alert's kind; what may be missing at the end is left out. -/
def relay : String :=
  r#"[["garage", null, null, "2016-12-31t23:59:60-00:00", 5, [{"INERROR": null}, "m"], "#
    ++ r#"[["out", ["temperature", "outdoor"], 18.5]]], true]"#

theorem readText_write_relayed :
    alarmState.codec.readText relay = .ok relayed ∧
      alarmState.codec.readText (alarmState.codec.write relayed).text = .ok relayed := by
  have hread : alarmState.codec.readText relay = .ok relayed := by decide +kernel
  have hnumbers : (alarmState.codec.write relayed).numbers = [.int 5, .real mild, .int 0] := by
    decide +kernel
  refine ⟨hread, (readText_write alarmState hread fun r hr => ?_).1⟩
  rw [hnumbers] at hr
  have hmild : r = mild := by simpa using hr
  rw [hmild]
  exact Json.readsBack_of_spelling? (by decide +kernel)

end PayloadType

end HouseBoard
