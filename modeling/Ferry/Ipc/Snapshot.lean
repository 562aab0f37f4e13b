import Ferry.Daemon.AcceptanceTimer
import Ferry.Discovery.Accuracy

/-!
# The snapshot for a new client

`_send_state_snapshot` builds each section of its message inside a `try` that falls back to an empty
section.  `DatabaseManager` has no `is_trusted` and `OutgoingTransfer` has no `meta`, so a section that
looks one of them up is empty.
-/

namespace Ferry

open Exec Machine Text

/-- The fields of `FerryConfig` that are sent. -/
structure FerryConfig where
  deviceName : Text
  deviceId : Text
  listenPort : ℤ
  downloadDir : Text

namespace Ipc

structure DeviceEntry where
  deviceId : Text
  deviceName : Text
  deviceType : Text
  addresses : List Text
  port : ℤ
  isTrusted : Bool

structure SessionEntry where
  remoteAddr : Text
  remoteDeviceId : JsonValue
  remoteDeviceName : JsonValue
  state : SessionState

/-- An outgoing transfer is sent without `bytes_done`. -/
structure TransferEntry where
  transferId : Text
  direction : Direction
  fileName : Text
  fileSize : ℤ
  bytesDone : Option ℕ
  state : TransferState

/-- The payload of IPC_STATE_SNAPSHOT. -/
structure StateSnapshot where
  devices : List DeviceEntry
  sessions : List SessionEntry
  activeTransfers : List TransferEntry
  config : FerryConfig
  identityKeyPrefix : Text

open Daemon

/-! ## The sections -/

/-- `svc.db.is_trusted(..)`: the lookup of the attribute raises. -/
def isTrusted (_deviceId : Text) : Segment Bool := throw .attribute

/-- `outgoing.meta`: the lookup of the attribute raises. -/
def outgoingMeta (_outgoing : ℕ) : Segment (Option TransferMetadata) := throw .attribute

def deviceEntry (d : DiscoveredDevice) : Segment DeviceEntry := do
  let isTrusted ← if d.deviceId ≠ [] then isTrusted d.deviceId else pure false
  pure {
    deviceId := d.deviceId
    deviceName := d.deviceName
    deviceType := d.deviceType
    addresses := d.addresses
    port := d.port
    isTrusted := isTrusted }

def sessionEntry (item : Text × ℕ) : Segment SessionEntry := do
  let s ← get
  let ps := s.sessions item.2
  pure {
    remoteAddr := item.1
    remoteDeviceId := ps.remote.deviceId
    remoteDeviceName := ps.remote.deviceName
    state := ps.state }

def incomingEntry (item : Text × ℕ) : Segment TransferEntry := do
  let s ← get
  let incoming := s.objects item.2
  pure {
    transferId := item.1
    direction := .incoming
    fileName := incoming.metadata.fileName
    fileSize := incoming.metadata.fileSize
    bytesDone := some incoming.bytesReceived
    state := incoming.state }

def outgoingEntry (item : Text × ℕ × ℕ) : Segment TransferEntry := do
  let metadata ← outgoingMeta item.2.2
  let s ← get
  pure {
    transferId := item.1
    direction := .outgoing
    fileName := (metadata.map (·.fileName)).getD []
    fileSize := (metadata.map (·.fileSize)).getD 0
    bytesDone := none
    state := (s.outgoing item.2.2).state }

/-- `try: section except Exception: []`. -/
def orEmpty {α : Type} (entries : Segment (List α)) : Segment (List α) :=
  tryCatch entries fun _ ↦ pure []

def activeTransfers : Segment (List TransferEntry) := do
  let s ← get
  let incoming ← collect incomingEntry s.ledger.incomingTransfers.items
  let outgoing ← collect outgoingEntry s.activeOutgoingTransfers.items
  pure (incoming ++ outgoing)

/-- `_send_state_snapshot`, up to the message that is sent. -/
def stateSnapshot (config : FerryConfig) (discovery : DiscoveryManager) : Segment StateSnapshot := do
  let s ← get
  let devices ← orEmpty (collect deviceEntry discovery.getDevices)
  let sessions ← orEmpty (collect sessionEntry s.activeSessions.items)
  let activeTransfers ← orEmpty activeTransfers
  pure {
    devices := devices
    sessions := sessions
    activeTransfers := activeTransfers
    config := config
    identityKeyPrefix := s.publicKeyB64.take 12 }

/-! ## What is sent -/

/-- The sections that are sent.  One device empties the first and one outgoing transfer the last. -/
def sentSnapshot (config : FerryConfig) (s : Daemon) : StateSnapshot where
  devices := []
  sessions := s.activeSessions.items.map fun item ↦
    ⟨item.1, (s.sessions item.2).remote.deviceId, (s.sessions item.2).remote.deviceName,
      (s.sessions item.2).state⟩
  activeTransfers :=
    if s.activeOutgoingTransfers.items = [] then
      s.ledger.incomingTransfers.items.map fun item ↦
        ⟨item.1, .incoming, (s.objects item.2).metadata.fileName, (s.objects item.2).metadata.fileSize,
          some (s.objects item.2).bytesReceived, (s.objects item.2).state⟩
    else []
  config := config
  identityKeyPrefix := s.publicKeyB64.take 12

theorem deviceEntry_run (s : Daemon) (d : DiscoveredDevice) : deviceEntry d s = (.error .attribute, s) := by
  rw [deviceEntry, if_pos d.identified]
  rfl

theorem devices_run (s : Daemon) (devices : List DiscoveredDevice) :
    orEmpty (collect deviceEntry devices) s = (.ok [], s) := by
  cases devices with
  | nil => rfl
  | cons d devices =>
    exact tryCatch_run_of_raises (collect_run_of_raises (deviceEntry_run s d) devices)

theorem activeTransfers_run (config : FerryConfig) (s : Daemon) :
    orEmpty activeTransfers s = (.ok (sentSnapshot config s).activeTransfers, s) := by
  have hincoming : collect incomingEntry s.ledger.incomingTransfers.items s = _ :=
    collect_run_of_ok fun item _ ↦ rfl
  cases houtgoing : s.activeOutgoingTransfers.items with
  | nil =>
    apply tryCatch_run_of_ok
    rw [activeTransfers, get_bind_run, bind_run_of_ok hincoming, houtgoing]
    simp only [sentSnapshot, houtgoing, if_true]
    change (Except.ok (_ ++ []), s) = _
    rw [List.append_nil]
  | cons item items =>
    have hentry : outgoingEntry item s = (.error .attribute, s) := rfl
    have hcollect := collect_run_of_raises hentry items
    have hraises : activeTransfers s = (.error .attribute, s) := by
      rw [activeTransfers, get_bind_run, bind_run_of_ok hincoming, houtgoing,
        bind_run_of_raises (congrArg Prod.fst hcollect), hcollect]
    rw [orEmpty, tryCatch_run_of_raises hraises]
    simp only [sentSnapshot, houtgoing, reduceCtorEq, if_false]
    rfl

/-- Building the snapshot changes nothing, whatever is discovered and transferred. -/
theorem stateSnapshot_run (config : FerryConfig) (discovery : DiscoveryManager) (s : Daemon) :
    stateSnapshot config discovery s = (.ok (sentSnapshot config s), s) := by
  have hsessions : orEmpty (collect sessionEntry s.activeSessions.items) s = _ :=
    tryCatch_run_of_ok (collect_run_of_ok fun item _ ↦ rfl)
  rw [stateSnapshot, get_bind_run, bind_run_of_ok (devices_run s _), bind_run_of_ok hsessions,
    bind_run_of_ok (activeTransfers_run config s)]
  rfl

/-! ## Completeness -/

/-- A device is trusted when it has a row in `trusted_devices`. -/
def Trusted (s : Daemon) (deviceId : Text) : Prop := ∃ row ∈ s.db.devices.rows, row.deviceId = some deviceId

/-- The file that a suspended `send_file` announced for its transfer. -/
def Announced (s : Daemon) (outgoing : ℕ) (fileName : Text) (fileSize : ℤ) : Prop :=
  ∃ task send await, s.tasks.get task = some (.file send await) ∧ send.xfer = outgoing ∧
    send.metadata.fileName = fileName ∧ send.metadata.fileSize = fileSize

/-- The snapshot lists the devices, the sessions and the transfers of the daemon, and no others. -/
structure Complete (discovery : DiscoveryManager) (s : Daemon) (snapshot : StateSnapshot) : Prop where
  devices : snapshot.devices.map (·.deviceId) = discovery.getDevices.map (·.deviceId)
  trusted : ∀ entry ∈ snapshot.devices, entry.isTrusted = true ↔ Trusted s entry.deviceId
  sessions : snapshot.sessions.map (·.remoteAddr) = s.activeSessions.items.map Prod.fst
  transfers : snapshot.activeTransfers.map (fun entry ↦ (entry.transferId, entry.direction)) =
    s.ledger.incomingTransfers.items.map (fun item ↦ (item.1, .incoming)) ++
      s.activeOutgoingTransfers.items.map fun item ↦ (item.1, .outgoing)
  incoming : ∀ entry ∈ snapshot.activeTransfers, entry.direction = .incoming →
    ∃ object, s.ledger.incomingTransfers.get entry.transferId = some object ∧
      (s.objects object).metadata.fileName = entry.fileName ∧
      (s.objects object).metadata.fileSize = entry.fileSize
  outgoing : ∀ entry ∈ snapshot.activeTransfers, entry.direction = .outgoing →
    ∃ ps xfer, s.activeOutgoingTransfers.get entry.transferId = some (ps, xfer) ∧
      Announced s xfer entry.fileName entry.fileSize

theorem complete_of_quiet {config : FerryConfig} {discovery : DiscoveryManager} {s : Daemon}
    (hdevices : discovery.getDevices = []) (houtgoing : s.activeOutgoingTransfers.items = []) :
    Complete discovery s (sentSnapshot config s) := by
  have htransfers : ∀ entry ∈ (sentSnapshot config s).activeTransfers,
      ∃ item ∈ s.ledger.incomingTransfers.items, entry.direction = .incoming ∧ entry.transferId = item.1 ∧
        (s.objects item.2).metadata.fileName = entry.fileName ∧
        (s.objects item.2).metadata.fileSize = entry.fileSize := by
    intro entry hentry
    rw [sentSnapshot, if_pos houtgoing] at hentry
    obtain ⟨item, hitem, rfl⟩ := List.mem_map.mp hentry
    exact ⟨item, hitem, rfl, rfl, rfl, rfl⟩
  constructor
  · rw [hdevices]
    rfl
  · exact nofun
  · simp [sentSnapshot, Function.comp_def]
  · simp [sentSnapshot, houtgoing, Function.comp_def]
  · intro entry hentry _
    obtain ⟨⟨transferId, object⟩, hitem, -, hid, hname, hsize⟩ := htransfers entry hentry
    exact ⟨object, by rw [hid]; exact Dict.mem_items.mp hitem, hname, hsize⟩
  · intro entry hentry hdirection
    obtain ⟨item, -, hincoming, -⟩ := htransfers entry hentry
    exact nomatch hincoming.symm.trans hdirection

/-- The snapshot is complete exactly when no device is discovered and no outgoing transfer is active. -/
theorem snapshot_complete_iff (config : FerryConfig) (discovery : DiscoveryManager) (s : Daemon) :
    (∃ snapshot, (stateSnapshot config discovery s).1 = .ok snapshot ∧ Complete discovery s snapshot) ↔
      discovery.getDevices = [] ∧ s.activeOutgoingTransfers.items = [] := by
  rw [stateSnapshot_run]
  constructor
  · rintro ⟨snapshot, hsent, hcomplete⟩
    obtain rfl := Except.ok.inj hsent
    refine ⟨List.map_eq_nil_iff.mp hcomplete.devices.symm, ?_⟩
    by_contra houtgoing
    have htransfers := hcomplete.transfers
    rw [sentSnapshot, if_neg houtgoing] at htransfers
    have hboth := List.append_eq_nil_iff.mp htransfers.symm
    exact houtgoing (List.map_eq_nil_iff.mp hboth.2)
  · rintro ⟨hdevices, houtgoing⟩
    exact ⟨_, rfl, complete_of_quiet hdevices houtgoing⟩

def sampleConfig : FerryConfig := ⟨lit "Laptop", lit "laptop", 53770, lit "/home/user/Downloads/Ferry"⟩

/-- A phone that was discovered is missing in the snapshot. -/
theorem snapshot_without_discovered_phone : ¬∀ (config : FerryConfig) (ownDeviceId : Text)
    (changes : List DiscoveryEvent) (s : Daemon) (events : List Event), s.Started →
    ∃ snapshot, (stateSnapshot config (run Discovery.step (.new ownDeviceId) changes).manager
        (s.run events)).1 = .ok snapshot ∧
      Complete (run Discovery.step (.new ownDeviceId) changes).manager (s.run events) snapshot := by
  intro h
  obtain ⟨snapshot, hsent, hcomplete⟩ :=
    h sampleConfig (lit "laptop") (Discovery.sampleVisit.take 4) sampleDaemon [] started_sampleDaemon
  rw [stateSnapshot_run] at hsent
  obtain rfl := Except.ok.inj hsent
  have hdevices : (run Discovery.step (.new (lit "laptop"))
      (Discovery.sampleVisit.take 4)).manager.getDevices.length = 1 := by decide +kernel
  have hlisted := congrArg List.length hcomplete.devices
  rw [List.length_map, List.length_map, hdevices] at hlisted
  exact nomatch hlisted

end Ipc

end Ferry
