import Ferry.Base.Dict
import Ferry.Base.Utf8

/-!
# Discovered devices

`DiscoveredDevice` and how it is read from the TXT properties and the addresses of an advertised service.
A device always has an identifier.
-/

namespace Ferry

open Text

/-- What `AsyncServiceInfo` holds after a request that succeeded. -/
structure ServiceInfo where
  name : Text
  properties : Dict Bytes (Option Bytes)
  v4Addresses : List Text
  v6Addresses : List Text
  port : ℤ

structure DiscoveredDevice where
  deviceId : Text
  deviceName : Text
  deviceType : Text
  osName : Text
  protocolVersion : ℤ
  addresses : List Text
  port : ℤ
  serviceName : Text
  lastSeen : ℤ
  isAvailable : Bool
  identified : deviceId ≠ []

namespace DiscoveredDevice

/-- `PROTOCOL_VERSION`. -/
def supportedVersion : ℤ := 1

/-- `get_prop`. -/
def getProp (properties : Dict Bytes (Option Bytes)) (key default : String) : Text :=
  match properties.get ((lit key).map fun c ↦ UInt8.ofNat c.val) with
  | some (some value) => utf8DecodeReplace value
  | some none | none => lit default

/-- Append an address that is new and not one of this host. -/
def addAddress (loopback : String) (addresses : List Text) (address : Text) : List Text :=
  if address ∉ addresses ∧ ¬(lit loopback).isPrefixOf address then addresses ++ [address]
  else addresses

def addressesOf (info : ServiceInfo) : List Text :=
  info.v6Addresses.foldl (addAddress "::1") (info.v4Addresses.foldl (addAddress "127.") [])

/-- `from_service_info`. -/
def fromServiceInfo (now : ℤ) (info : ServiceInfo) : Option DiscoveredDevice :=
  let prop := getProp info.properties
  if info.properties.items = [] then none
  else if parseInt 10 (prop "v" "1") ≠ some supportedVersion then none
  else if identified : prop "id" "" = [] then none
  else if addressesOf info = [] then none
  else some {
    deviceId := prop "id" ""
    deviceName := prop "name" "Unknown Raven Peer"
    deviceType := prop "type" "unknown"
    osName := prop "os" "unknown"
    protocolVersion := supportedVersion
    addresses := addressesOf info
    port := info.port
    serviceName := info.name
    lastSeen := now
    isAvailable := true
    identified := identified }

/-- A device that was read is on the list. -/
theorem isAvailable_of_fromServiceInfo {now : ℤ} {info : ServiceInfo} {device : DiscoveredDevice}
    (h : fromServiceInfo now info = some device) : device.isAvailable = true := by
  unfold fromServiceInfo at h
  simp only [Option.ite_none_left_eq_some, Option.dite_none_left_eq_some, Option.some.injEq] at h
  obtain ⟨-, -, -, -, rfl⟩ := h
  rfl

end DiscoveredDevice

end Ferry
