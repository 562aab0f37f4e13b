import Ferry.Base.Dict
import Ferry.Base.Machine
import Ferry.Base.Utf8
import Ferry.Android.TrustStore

/-!
# Discovery on the phone

`FerryDiscoveryEngine` with its two maps and the queue of resolutions, one of which runs at a time.  A
lost service is matched by name, in both directions by substring, and every matched name takes its device
along.  A service that is lost stays in the queue.
-/

namespace Ferry

open Machine Text

namespace Kotlin

/-! ## Discovered devices -/

/-- `NsdServiceInfo` after a resolution. -/
structure NsdServiceInfo where
  serviceName : Text
  attributes : Dict Text (Option Bytes)
  hostAddress : Option Text
  port : ℤ

structure DiscoveredDevice where
  deviceId : Text
  deviceName : Text
  deviceType : Text
  osName : Text
  protocolVersion : ℤ
  host : Text
  port : ℤ
  serviceName : Text

/-- The value of a decimal digit of the basic plane. -/
def decimalDigit (c : CodePoint) : Option ℕ :=
  if c.val < 0x10000 ∧ isDigit 10 c then digitValue c else none

/-- `toIntOrNull`. -/
def toIntOrNull (t : Text) : Option ℤ :=
  let (negative, digits) := splitSign t
  if digits = [] then none
  else (digits.mapM decimalDigit).bind fun ds ↦
    let magnitude : ℤ := (ds.foldl (fun acc d ↦ acc * 10 + d) 0 : ℕ)
    let value := if negative then -magnitude else magnitude
    if -2 ^ 31 ≤ value ∧ value < 2 ^ 31 then some value else none

namespace DiscoveredDevice

/-- `getAttr`. -/
def getAttr (attributes : Dict Text (Option Bytes)) (key : String) : Option Text :=
  ((attributes.get (lit key)).bind id).map utf8DecodeReplace

/-- `fromNsdServiceInfo`. -/
def fromNsdServiceInfo (info : NsdServiceInfo) : Option DiscoveredDevice := do
  let protocolVersion ← toIntOrNull ((getAttr info.attributes "v").getD (lit "1"))
  if protocolVersion ≠ 1 then none
  let deviceId ← getAttr info.attributes "id"
  let host ← info.hostAddress
  if isBlank host ∨ host = lit "0.0.0.0" ∨ info.port ≤ 0 then none
  some {
    deviceId := deviceId
    deviceName := (getAttr info.attributes "name").getD info.serviceName
    deviceType := (getAttr info.attributes "type").getD (lit "unknown")
    osName := (getAttr info.attributes "os").getD (lit "unknown")
    protocolVersion := protocolVersion
    host := host
    port := info.port
    serviceName := info.serviceName }

end DiscoveredDevice

/-! ## Names of services -/

/-- The text with every `\032` replaced, after the rest of one that was replaced is skipped. -/
def unescapeFrom : ℕ → Text → Text
  | _, [] => []
  | 0, c :: rest =>
    if (lit "\\032").isPrefixOf (c :: rest) then 0x20 :: unescapeFrom 3 rest
    else c :: unescapeFrom 0 rest
  | skipped + 1, _ :: rest => unescapeFrom skipped rest

/-- `replace("\\032", " ")`. -/
def unescape (name : Text) : Text := unescapeFrom 0 name

/-- The filter of `onServiceLost`. -/
def matchesLost (lost key : Text) : Bool :=
  unescape key = unescape lost || hasInfix (unescape lost) key || hasInfix key (unescape lost)

end Kotlin

open Kotlin

/-- `FerryDiscoveryEngine`.  The queue and the resolution that runs are given by the names of their
services.  `callbacks` records, the newest first, which services were found and which were lost. -/
structure FerryDiscoveryEngine where
  deviceId : Text
  deviceMap : Dict Text Kotlin.DiscoveredDevice
  serviceNameToDeviceId : Dict Text Text
  resolveQueue : List Text
  resolving : Option Text
  callbacks : List (Text × Bool)

/-- The callbacks of the platform, and the calls that clear the maps.  A call of `resolveService` that
raises is a failed resolution. -/
inductive NsdEvent
  | serviceFound (serviceName : Text)
  | serviceLost (serviceName : Text)
  | serviceResolved (info : NsdServiceInfo)
  | resolveFailed
  | restartDiscovery

namespace FerryDiscoveryEngine

def new (deviceId : Text) : FerryDiscoveryEngine where
  deviceId := deviceId
  deviceMap := ∅
  serviceNameToDeviceId := ∅
  resolveQueue := []
  resolving := none
  callbacks := []

/-- `processNextResolve` up to the call of `resolveService`. -/
def processNextResolve (e : FerryDiscoveryEngine) : FerryDiscoveryEngine :=
  match e.resolving, e.resolveQueue with
  | none, name :: queue => { e with resolving := some name, resolveQueue := queue }
  | _, _ => e

/-- `onServiceFound`. -/
def onServiceFound (e : FerryDiscoveryEngine) (serviceName : Text) : FerryDiscoveryEngine :=
  let e := { e with callbacks := (serviceName, true) :: e.callbacks }
  if hasInfix (e.deviceId.take 8) serviceName then e
  else processNextResolve { e with resolveQueue := e.resolveQueue ++ [serviceName] }

/-- Remove a name and the device that it maps to. -/
def removeService (e : FerryDiscoveryEngine) (key : Text) : FerryDiscoveryEngine :=
  match e.serviceNameToDeviceId.get key with
  | none => e
  | some deviceId => { e with
    serviceNameToDeviceId := e.serviceNameToDeviceId.pop key
    deviceMap := e.deviceMap.pop deviceId }

/-- `serviceNameToDeviceId.keys.filter`. -/
def matchingKeys (e : FerryDiscoveryEngine) (serviceName : Text) : List Text :=
  (e.serviceNameToDeviceId.items.map Prod.fst).filter (matchesLost serviceName)

/-- `onServiceLost`. -/
def onServiceLost (e : FerryDiscoveryEngine) (serviceName : Text) : FerryDiscoveryEngine :=
  (e.matchingKeys serviceName).foldl removeService
    { e with callbacks := (serviceName, false) :: e.callbacks }

/-- Store the device of a resolution unless it is this phone. -/
def addDevice (e : FerryDiscoveryEngine) (serviceName : Text) :
    Option Kotlin.DiscoveredDevice → FerryDiscoveryEngine
  | none => e
  | some device =>
    if device.deviceId = e.deviceId then e
    else { e with
      deviceMap := e.deviceMap.set device.deviceId device
      serviceNameToDeviceId := e.serviceNameToDeviceId.set serviceName device.deviceId }

def step (e : FerryDiscoveryEngine) : NsdEvent → FerryDiscoveryEngine
  | .serviceFound serviceName => e.onServiceFound serviceName
  | .serviceLost serviceName => e.onServiceLost serviceName
  | .serviceResolved info =>
    if e.resolving = none then e
    else processNextResolve (addDevice { e with resolving := none } info.serviceName
      (DiscoveredDevice.fromNsdServiceInfo info))
  | .resolveFailed => if e.resolving = none then e else processNextResolve { e with resolving := none }
  | .restartDiscovery => { e with deviceMap := ∅, serviceNameToDeviceId := ∅ }

end FerryDiscoveryEngine

end Ferry
