import Ferry.Base.Base64
import Ferry.Service.Records

/-!
# What one key does to the trust of the others

The two places where the service writes `trusted_devices`: the trusted branch of the handshake and
the end of a pairing.  Both write the row with the device id that the peer sent, whichever key the
row belongs to.  A peer that sends the id of another device therefore takes over its row, and the
other keys are left alone exactly when the row under the written id is not the one that a lookup of
another key depends on.
-/

namespace Ferry

open Exec Text

/-- `value or default`. -/
def JsonValue.or (value default : JsonValue) : JsonValue := if value.truthy then value else default

/-- What a `PeerSession` holds of the peer's handshake: `remote_device_id`, `remote_device_name` and
`remote_static_pub_b64`. -/
structure RemotePeer where
  deviceId : JsonValue
  deviceName : JsonValue
  staticPubB64 : Text

/-- The value of a column that may be NULL. -/
def columnValue : Option Text → JsonValue
  | some t => .str t
  | none => .null

/-- The trusted branch of `_run_handshake`: whether the session becomes ESTABLISHED without pairing. -/
def trustExisting (now : ℤ) (remote : RemotePeer) : Exec PyError Database Bool := do
  let existing ← Database.getDeviceByPublicKey remote.staticPubB64
  match existing with
  | none => return false
  | some device =>
    Database.addOrUpdateDevice (remote.deviceId.or (columnValue device.deviceId))
      (remote.deviceName.or (.str device.deviceName)) device.publicKey device.identityPublicKeyB64
      device.pairedAt now
    return true

/-- `_persist_trust`, where `uuid` is the value of `uuid.uuid4()`. -/
def persistTrust (now : ℤ) (uuid : Text) (remote : RemotePeer) : Exec PyError Database Unit :=
  Database.addOrUpdateDevice (remote.deviceId.or (.str uuid)) (remote.deviceName.or (.str (lit "Unknown")))
    remote.staticPubB64 remote.staticPubB64 now now

theorem sameTransfers_persistTrust (now : ℤ) (uuid : Text) (remote : RemotePeer) :
    Stays Database.SameTransfers (persistTrust now uuid remote) :=
  Database.sameTransfers_addOrUpdateDevice _ _ _ _ _ _

theorem sameTransfers_trustExisting (now : ℤ) (remote : RemotePeer) :
    Stays Database.SameTransfers (trustExisting now remote) := by
  refine stays_bind (Database.sameTransfers_getDeviceByPublicKey _) fun existing ↦ ?_
  cases existing with
  | none => exact stays_pure _
  | some device =>
    exact stays_bind (Database.sameTransfers_addOrUpdateDevice _ _ _ _ _ _) fun _ ↦ stays_pure _

/-- A completed handshake of a peer, or a completed pairing with it. -/
inductive TrustOperation
  | handshake
  | pairing (uuid : Text)

namespace TrustOperation

def run (now : ℤ) (remote : RemotePeer) : TrustOperation → Exec PyError Database Bool
  | handshake => trustExisting now remote
  | pairing uuid => do
    persistTrust now uuid remote
    return true

/-- The device id that the operation writes: none when it writes no row, or a row with NULL. -/
def writtenId (remote : RemotePeer) (table : DeviceTable) : TrustOperation → Option Text
  | handshake =>
    match table.byPublicKey remote.staticPubB64 with
    | none => none
    | some device =>
      (Database.column (remote.deviceId.or (columnValue device.deviceId))).toOption.join
  | pairing uuid => (Database.column (remote.deviceId.or (.str uuid))).toOption.join

end TrustOperation

/-! ## What the operations write -/

section Runs

variable {db db' : Database}

theorem access_devices (db : Database) : wp Database.access (fun _ t ↦ t.devices = db.devices) db := by
  unfold Database.access
  rw [wp_get_bind, wp_modify_bind, wp_raiseIf]
  exact ⟨fun _ ↦ rfl, fun _ ↦ rfl⟩

theorem access_returned {u : Unit} (h : Database.access db = (.ok u, db')) :
    db'.devices = db.devices := by
  have haccess := access_devices db
  rw [wp, h] at haccess
  exact haccess

theorem addOrUpdateDevice_raised {deviceId deviceName : JsonValue} {publicKey key : Text}
    {pairedAt lastSeen : ℤ} :
    wp (Database.addOrUpdateDevice deviceId deviceName publicKey key pairedAt lastSeen)
      (fun r t ↦ ∀ e, r = .error e → t.devices = db.devices) db := by
  unfold Database.addOrUpdateDevice Database.bindText
  apply wp_bind_of (access_devices db)
  · intro e t ht _ _
    exact ht
  · intro u t ht
    simp only [wp_ofResult_bind, wp_raiseIf_bind, wp_modify]
    simp [ht]

theorem addOrUpdateDevice_returned {deviceId deviceName : JsonValue} {publicKey key : Text}
    {pairedAt lastSeen : ℤ} {u : Unit}
    (h : Database.addOrUpdateDevice deviceId deviceName publicKey key pairedAt lastSeen db =
      (.ok u, db')) :
    ∃ id name, Database.column deviceId = .ok id ∧
      db'.devices = db.devices.upsert ⟨id, name, publicKey, key, pairedAt, lastSeen⟩ := by
  unfold Database.addOrUpdateDevice Database.bindText at h
  rw [bind_run_eq_ok] at h
  obtain ⟨u, t, haccess, h⟩ := h
  simp only [ofResult_bind_run_eq_ok, raiseIf_bind_run_eq_ok, require_eq_ok] at h
  obtain ⟨id, hid, name, -, -, -, name', -, hrun⟩ := h
  cases hrun
  exact ⟨id, name', hid, congrArg (DeviceTable.upsert · _) (access_returned haccess)⟩

theorem getDeviceByPublicKey_returned {key : Text} {device : Option TrustedDevice}
    (h : Database.getDeviceByPublicKey key db = (.ok device, db')) :
    device = db.devices.byPublicKey key ∧ db'.devices = db.devices := by
  unfold Database.getDeviceByPublicKey Database.bindText at h
  rw [bind_run_eq_ok] at h
  obtain ⟨u, t, haccess, h⟩ := h
  rw [raiseIf_bind_run_eq_ok, get_bind_run] at h
  cases h.2
  rw [access_returned haccess]
  exact ⟨rfl, rfl⟩

/-- The trust of a peer can be written: the statement meets no fault, and SQLite stores the device id
and the name. -/
def Persistable (uuid : Text) (remote : RemotePeer) (db : Database) : Prop :=
  db.faults.headD false = false ∧
    (∃ id, Database.column (remote.deviceId.or (.str uuid)) = .ok id) ∧
    (∃ name, Database.column (remote.deviceName.or (.str (lit "Unknown"))) = .ok (some name)) ∧
    remote.staticPubB64.any isSurrogate = false

theorem persistTrust_of_persistable {now : ℤ} {uuid : Text} {remote : RemotePeer}
    (h : Persistable uuid remote db) : (persistTrust now uuid remote db).1 = .ok () := by
  obtain ⟨hfault, ⟨id, hid⟩, ⟨name, hname⟩, hkey⟩ := h
  rw [List.headD_eq_head?_getD] at hfault
  change wp (persistTrust now uuid remote) (fun r _ ↦ r = .ok ()) db
  unfold persistTrust Database.addOrUpdateDevice Database.access Database.bindText
  simp [hfault, hid, hname, hkey, require]

/-- A pairing stores the key, or raises and leaves the table as it is. -/
theorem wp_persistTrust (now : ℤ) (uuid : Text) (remote : RemotePeer) :
    wp (persistTrust now uuid remote) (fun r t ↦
      (r = .ok () ∧ (t.devices.byPublicKey remote.staticPubB64).isSome) ∨
        ∃ e, r = .error e ∧ ¬Persistable uuid remote db ∧ t.devices = db.devices) db := by
  have hraised : ∀ e, (persistTrust now uuid remote db).1 = .error e →
      (persistTrust now uuid remote db).2.devices = db.devices := addOrUpdateDevice_raised
  rcases hrun : persistTrust now uuid remote db with ⟨r, t⟩
  rw [hrun] at hraised
  rw [wp, hrun]
  cases r with
  | ok u =>
    obtain ⟨id, name, -, hdevices⟩ := addOrUpdateDevice_returned hrun
    refine .inl ⟨rfl, ?_⟩
    dsimp only
    rw [hdevices]
    exact DeviceTable.byPublicKey_upsert_isSome _ _
  | error e =>
    refine .inr ⟨e, rfl, ?_, hraised e rfl⟩
    intro hpersistable
    have hok : (persistTrust now uuid remote db).1 = .ok () := persistTrust_of_persistable hpersistable
    rw [hrun] at hok
    simp at hok

/-- An operation that returns leaves the table as it is, or writes one row with the peer's key. -/
theorem TrustOperation.run_returned {op : TrustOperation} {now : ℤ} {remote : RemotePeer} {r : Bool}
    (h : op.run now remote db = (.ok r, db')) :
    (r = false ∧ op.writtenId remote db.devices = none ∧ db'.devices = db.devices) ∨
      ∃ device : TrustedDevice, r = true ∧ device.deviceId = op.writtenId remote db.devices ∧
        device.identityPublicKeyB64 = remote.staticPubB64 ∧
        db'.devices = db.devices.upsert device := by
  cases op with
  | handshake =>
    unfold TrustOperation.run trustExisting at h
    rw [bind_run_eq_ok] at h
    obtain ⟨existing, t, hget, h⟩ := h
    obtain ⟨hexisting, hsame⟩ := getDeviceByPublicKey_returned hget
    cases existing with
    | none =>
      cases h
      exact .inl ⟨rfl, by rw [writtenId, ← hexisting], hsame⟩
    | some device =>
      rw [bind_run_eq_ok] at h
      obtain ⟨u, t', hadd, h⟩ := h
      cases h
      obtain ⟨id, name, hid, hdevices⟩ := addOrUpdateDevice_returned hadd
      have hkey := (DeviceTable.byPublicKey_eq_some hexisting.symm).2
      rw [hsame] at hdevices
      refine .inr ⟨⟨id, name, device.publicKey, device.identityPublicKeyB64, device.pairedAt, now⟩, rfl,
        ?_, hkey, hdevices⟩
      rw [writtenId, ← hexisting]
      simp only [hid]
      rfl
  | pairing uuid =>
    unfold TrustOperation.run persistTrust at h
    rw [bind_run_eq_ok] at h
    obtain ⟨u, t, hadd, h⟩ := h
    cases h
    obtain ⟨id, name, hid, hdevices⟩ := addOrUpdateDevice_returned hadd
    refine .inr ⟨_, rfl, ?_, rfl, hdevices⟩
    rw [writtenId, hid]
    rfl

end Runs

/-! ## Who is left alone -/

/-- The row under the written id is absent, or belongs to the writing key, or a lookup of its key
does not depend on it: an earlier row has the same key, or the next one was paired at the same
time. -/
def Harmless (table : DeviceTable) (id : Option Text) (key : Text) : Prop :=
  ∀ before row after, table.rows = before ++ row :: after → id ≠ none → row.deviceId = id →
    row.identityPublicKeyB64 = key ∨
      (∃ earlier ∈ before, earlier.identityPublicKeyB64 = row.identityPublicKeyB64) ∨
      (after.find? fun later ↦ later.identityPublicKeyB64 = row.identityPublicKeyB64).map
        TrustedDevice.pairedAt = some row.pairedAt

/-- When a key was paired, if a lookup of it returns a row. -/
def DeviceTable.pairedAt (table : DeviceTable) (key : Text) : Option ℤ :=
  (table.byPublicKey key).map TrustedDevice.pairedAt

section Lookup

variable {table : DeviceTable} {device : TrustedDevice}

/-- Another key's lookup passes over a row of the writing key. -/
theorem find?_passes {before after : List TrustedDevice} {row : TrustedDevice} {key : Text}
    (h : row.identityPublicKeyB64 ≠ key) :
    ((before ++ row :: after).find? fun r ↦ r.identityPublicKeyB64 = key) =
      ((before ++ after).find? fun r ↦ r.identityPublicKeyB64 = key) := by
  rw [List.find?_append, List.find?_append, List.find?_cons_of_neg (by simpa using h)]

theorem pairedAt_upsert_absent {key : Text} (hkey : key ≠ device.identityPublicKeyB64)
    (h : ∀ row ∈ table.rows, device.deviceId ≠ none → row.deviceId ≠ device.deviceId) :
    (table.upsert device).pairedAt key = table.pairedAt key := by
  have hrows : (table.upsert device).rows = table.rows ++ device :: [] :=
    DeviceTable.upsertRows_of_absent h
  rw [DeviceTable.pairedAt, DeviceTable.byPublicKey, hrows, find?_passes hkey.symm, List.append_nil]
  rfl

theorem pairedAt_upsert_split {key : Text} (hkey : key ≠ device.identityPublicKeyB64)
    {before after : List TrustedDevice} {row : TrustedDevice}
    (hrows : table.rows = before ++ row :: after) (hid : device.deviceId ≠ none)
    (hrow : row.deviceId = device.deviceId) :
    (table.upsert device).pairedAt key =
      ((before ++ after).find? fun r ↦ r.identityPublicKeyB64 = key).map TrustedDevice.pairedAt := by
  have hnew : (table.upsert device).rows = before ++ DeviceTable.updated row device :: after := by
    have hdistinct := table.primaryKey
    rw [hrows] at hdistinct
    exact (congrArg (DeviceTable.upsertRows device) hrows).trans
      (DeviceTable.upsertRows_of_split hdistinct hid hrow)
  have hpasses : (DeviceTable.updated row device).identityPublicKeyB64 ≠ key := hkey.symm
  rw [DeviceTable.pairedAt, DeviceTable.byPublicKey, hnew, find?_passes hpasses]

theorem pairedAt_of_split {key : Text} {before after : List TrustedDevice} {row : TrustedDevice}
    (hrows : table.rows = before ++ row :: after) :
    table.pairedAt key = (((before ++ row :: after).find? fun r ↦
      r.identityPublicKeyB64 = key)).map TrustedDevice.pairedAt := by
  rw [DeviceTable.pairedAt, DeviceTable.byPublicKey, hrows]

/-- Writing a row leaves the lookups of the other keys as they are exactly when it is harmless. -/
theorem pairedAt_upsert_iff :
    (∀ key, key ≠ device.identityPublicKeyB64 →
      (table.upsert device).pairedAt key = table.pairedAt key) ↔
        Harmless table device.deviceId device.identityPublicKeyB64 := by
  constructor
  · intro h before row after hrows hid hrow
    by_cases hkey : row.identityPublicKeyB64 = device.identityPublicKeyB64
    · exact .inl hkey
    have hlookup := h row.identityPublicKeyB64 hkey
    rw [pairedAt_upsert_split hkey hrows hid hrow, pairedAt_of_split hrows, List.find?_append,
      List.find?_append] at hlookup
    cases hbefore : before.find? fun r ↦ r.identityPublicKeyB64 = row.identityPublicKeyB64 with
    | some earlier =>
      have hsame := List.find?_some hbefore
      exact .inr (.inl ⟨earlier, List.mem_of_find?_eq_some hbefore, by simpa using hsame⟩)
    | none =>
      rw [hbefore, Option.none_or, Option.none_or, List.find?_cons_of_pos (by simp)] at hlookup
      exact .inr (.inr hlookup)
  · intro h key hkey
    by_cases hpresent : ∃ row ∈ table.rows, device.deviceId ≠ none ∧ row.deviceId = device.deviceId
    · obtain ⟨row, hmem, hid, hrow⟩ := hpresent
      obtain ⟨before, after, hrows⟩ := List.append_of_mem hmem
      rw [pairedAt_upsert_split hkey hrows hid hrow, pairedAt_of_split hrows]
      by_cases hsame : row.identityPublicKeyB64 = key
      · subst hsame
        rw [List.find?_append, List.find?_append]
        rcases h before row after hrows hid hrow with hown | ⟨earlier, hearlier, heq⟩ | hlater
        · exact absurd hown hkey
        · have hfound : (before.find? fun r ↦
              r.identityPublicKeyB64 = row.identityPublicKeyB64).isSome := by
            rw [List.find?_isSome]
            exact ⟨earlier, hearlier, by simpa using heq⟩
          rw [Option.or_of_isSome hfound, Option.or_of_isSome hfound]
        · cases before.find? fun r ↦ r.identityPublicKeyB64 = row.identityPublicKeyB64 with
          | some earlier => rfl
          | none =>
            rw [Option.none_or, Option.none_or, List.find?_cons_of_pos (by simp), hlater]
            rfl
      · rw [find?_passes hsame]
    · apply pairedAt_upsert_absent hkey
      intro row hmem hid hrow
      exact hpresent ⟨row, hmem, hid, hrow⟩

end Lookup

/-- The text of a public key. -/
def sampleKey (b : UInt8) : Text := Base64.urlsafeB64encode (List.replicate 32 b)

/-- Two devices, each with its own key. -/
def sampleTable : DeviceTable where
  rows := [⟨some (lit "laptop"), lit "Laptop", sampleKey 1, sampleKey 1, 100, 100⟩,
    ⟨some (lit "phone"), lit "Phone", sampleKey 2, sampleKey 2, 200, 200⟩]
  primaryKey := by decide +kernel

def sampleDatabase : Database := ⟨sampleTable, ∅, []⟩

/-- The phone connects with the device id of the laptop. -/
def impostor : RemotePeer := ⟨.str (lit "laptop"), .str (lit "Phone"), sampleKey 2⟩

theorem impostor_run : (TrustOperation.handshake.run 300 impostor sampleDatabase) =
    (.ok true, (TrustOperation.handshake.run 300 impostor sampleDatabase).2) := rfl

end Ferry
