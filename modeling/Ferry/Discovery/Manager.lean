import Ferry.Base.Machine
import Ferry.Discovery.Device

/-!
# The discovery manager

`DiscoveryManager` on its event loop.  The browser reports a change of a service, which creates a task.
Tasks start in the order in which they were created; one for a service that was added or updated then
awaits the reply to its request, and the replies come in any order.  Nothing in a task waits for the
lock, which nobody holds across an await once the manager runs.
-/

namespace Ferry

open Machine

inductive ServiceStateChange
  | added
  | updated
  | removed
  deriving DecidableEq

/-- The fields of `DiscoveryManager` that the handlers read and write. -/
structure DiscoveryManager where
  ownDeviceId : Text
  isRunning : Bool
  devices : Dict Text DiscoveredDevice
  serviceToDevice : Dict Text Text

namespace DiscoveryManager

/-- `get_devices`. -/
def getDevices (m : DiscoveryManager) : List DiscoveredDevice :=
  (m.devices.items.map Prod.snd).filter (·.isAvailable)

/-- `get_device`. -/
def getDevice (m : DiscoveryManager) (deviceId : Text) : Option DiscoveredDevice :=
  (m.devices.get deviceId).filter (·.isAvailable)

/-- The handler after a request that gave a device. -/
def found (m : DiscoveryManager) (name : Text) (device : DiscoveredDevice) : DiscoveryManager :=
  if device.deviceId = m.ownDeviceId then m
  else { m with
    devices := m.devices.set device.deviceId device
    serviceToDevice := m.serviceToDevice.set name device.deviceId }

/-- `_devices[device_id].is_available = False`. -/
def setUnavailable (m : DiscoveryManager) (deviceId : Text) : DiscoveryManager :=
  match m.devices.get deviceId with
  | none => m
  | some device => { m with devices := m.devices.set deviceId { device with isAvailable := false } }

/-- The handler of a removal. -/
def removed (m : DiscoveryManager) (name : Text) : DiscoveryManager :=
  match m.serviceToDevice.get name with
  | none => m
  | some deviceId =>
    let m := { m with serviceToDevice := m.serviceToDevice.pop name }
    if deviceId = [] then m else m.setUnavailable deviceId

end DiscoveryManager

/-- A task that has not started. -/
structure HandlerTask where
  name : Text
  change : ServiceStateChange
  deriving DecidableEq

/-- The manager with its tasks: those that have not started, and the names whose requests are awaited.
`changes` and `resolutions` record, the newest first, what the browser reported and which device a
request gave. -/
structure Discovery where
  manager : DiscoveryManager
  ready : List HandlerTask
  requests : List Text
  changes : List HandlerTask
  resolutions : List (Text × Text)

/-- The browser reports a change, the oldest task that has not started runs, or a request returns: with
nothing when it times out or raises. -/
inductive DiscoveryEvent
  | change (name : Text) (change : ServiceStateChange)
  | start
  | reply (request : ℕ) (info : Option ServiceInfo) (now : ℤ)

namespace Discovery

/-- The manager when it has just begun to browse. -/
def new (ownDeviceId : Text) : Discovery where
  manager := ⟨ownDeviceId, true, ∅, ∅⟩
  ready := []
  requests := []
  changes := []
  resolutions := []

/-- `_on_service_state_change`. -/
def onServiceStateChange (s : Discovery) (name : Text) (change : ServiceStateChange) : Discovery :=
  { s with ready := s.ready ++ [⟨name, change⟩], changes := ⟨name, change⟩ :: s.changes }

/-- `_async_handle_state_change` up to its await. -/
def begin (s : Discovery) (task : HandlerTask) : Discovery :=
  if s.manager.isRunning = false then s
  else match task.change with
    | .added | .updated => { s with requests := s.requests ++ [task.name] }
    | .removed => { s with manager := s.manager.removed task.name }

/-- `_async_handle_state_change` after its await. -/
def finish (s : Discovery) (name : Text) : Option DiscoveredDevice → Discovery
  | none => s
  | some device => { s with
    manager := s.manager.found name device
    resolutions := (name, device.deviceId) :: s.resolutions }

def step (s : Discovery) : DiscoveryEvent → Discovery
  | .change name change => s.onServiceStateChange name change
  | .start =>
    match s.ready with
    | [] => s
    | task :: ready => begin { s with ready } task
  | .reply request info now =>
    match s.requests[request]? with
    | none => s
    | some name =>
      finish { s with requests := s.requests.eraseIdx request } name
        (info.bind (DiscoveredDevice.fromServiceInfo now))

/-! ## What the list should show -/

/-- The last change of a service that the browser reported. -/
def lastChange (s : Discovery) (name : Text) : Option ServiceStateChange :=
  (s.changes.find? (·.name = name)).map HandlerTask.change

/-- The device that the last successful request for a service gave. -/
def lastResolution (s : Discovery) (name : Text) : Option Text :=
  (s.resolutions.find? (·.1 = name)).map Prod.snd

/-- The last change of the service was not its removal. -/
def Advertised (s : Discovery) (name : Text) : Prop :=
  s.lastChange name = some .added ∨ s.lastChange name = some .updated

instance (s : Discovery) (name : Text) : Decidable (s.Advertised name) :=
  inferInstanceAs (Decidable (_ ∨ _))

/-- All tasks have finished. -/
def Settled (s : Discovery) : Prop := s.ready = [] ∧ s.requests = []

instance (s : Discovery) : Decidable s.Settled := inferInstanceAs (Decidable (_ ∧ _))

/-- The list has every device that an advertised service resolved to, and no other. -/
def Accurate (s : Discovery) : Prop :=
  ∀ deviceId, deviceId ≠ s.manager.ownDeviceId →
    ((∃ device ∈ s.manager.getDevices, device.deviceId = deviceId) ↔
      ∃ name, s.Advertised name ∧ s.lastResolution name = some deviceId)

end Discovery

end Ferry
