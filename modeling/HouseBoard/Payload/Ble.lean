/-
HouseBoard.Payload.Ble — what the radio coprocessor reports: its sensors, and an
alert of its own.
-/
import HouseBoard.Payload.Device

namespace HouseBoard

/-- The report of a radio sensor. -/
structure BleDevice where
  mac : String
  name : String
  lastSeenAt : Option Timestamp := none
  lastSeenFromNow : Option Nat := none
  alert : Option Alert := none
  temperature : Option Binary64 := none
  humidity : Option Binary64 := none
  batteryLevel : Option Binary64 := none
  batteryVoltage : Option Binary64 := none
  rssi : Option Int := none
  rxPackets : Option Nat := none
  deriving DecidableEq, Repr, Inhabited

namespace BleDevice

/-- The description of sensor reports. -/
def record : Record BleDevice where
  kinds :=
    [String, String, Option Timestamp, Option Nat, Option Alert, Option Binary64,
      Option Binary64, Option Binary64, Option Binary64, Option Int, Option Nat]
  fields :=
    .cons (.required "mac" .text) <|
    .cons (.required "name" .text) <|
    .cons (.nullable "last_seen_at" Timestamp.codec) <|
    .cons (.nullable "last_seen_from_now" (.upTo (UInt64.size - 1))) <|
    .cons (.nullable "alert" Alert.codec) <|
    .cons (.nullable "temperature" .real) <|
    .cons (.nullable "humidity" .real) <|
    .cons (.nullable "battery_level" .real) <|
    .cons (.nullable "battery_voltage" .real) <|
    .cons (.nullable "rssi" (.between (-2147483648) 2147483647)) <|
    .cons (.nullable "rx_packets" (.upTo (UInt32.size - 1))) .nil
  make
    | (mac, name, lastSeenAt, lastSeenFromNow, alert, temperature, humidity, batteryLevel,
        batteryVoltage, rssi, rxPackets, ()) =>
      { mac, name, lastSeenAt, lastSeenFromNow, alert, temperature, humidity, batteryLevel,
        batteryVoltage, rssi, rxPackets }
  split d :=
    (d.mac, d.name, d.lastSeenAt, d.lastSeenFromNow, d.alert, d.temperature, d.humidity,
      d.batteryLevel, d.batteryVoltage, d.rssi, d.rxPackets, ())

/-- Sensor reports as documents. -/
def codec : Codec BleDevice := record.codec

end BleDevice

/-- The report of the coprocessor. -/
structure BleDeviceList where
  devices : List BleDevice
  coproAlert : Option Alert := none
  deriving DecidableEq, Repr, Inhabited

namespace BleDeviceList

/-- The description of coprocessor reports. -/
def record : Record BleDeviceList where
  kinds := [List BleDevice, Option Alert]
  fields :=
    .cons (.required "devices" (.listOf BleDevice.codec)) <|
    .cons (.nullable "copro_alert" Alert.codec) .nil
  make | (devices, coproAlert, ()) => { devices, coproAlert }
  split l := (l.devices, l.coproAlert, ())

/-- Coprocessor reports as documents. -/
def codec : Codec BleDeviceList := record.codec

end BleDeviceList

end HouseBoard
