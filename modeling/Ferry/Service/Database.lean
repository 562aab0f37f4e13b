import Ferry.Base.Dict
import Ferry.Service.TrustedDevices
import Ferry.Transfer.Incoming

/-!
# The database

The tables of the SQLite store that the service uses.  A statement fails when the environment says
so, and when a value cannot be bound: SQLite takes integers of 64 bits and texts that encode to
UTF-8.  A column that is NULL reads as the empty value that the source puts in its place.
-/

namespace Ferry

open Exec Text

/-- The values of the column `direction`. -/
inductive Direction
  | incoming
  | outgoing
  deriving DecidableEq

/-- The values of the column `status`. -/
inductive TransferStatus
  | completed
  | failed
  | cancelled
  | interrupted
  | rejected
  deriving DecidableEq

/-- `TransferRecord`, without its key and the time of completion.  The device id is what the peer sent
as its own. -/
structure TransferRecord where
  deviceId : JsonValue
  fileName : Text
  fileSize : ℤ
  direction : Direction
  status : TransferStatus
  startedAt : ℤ
  sha256 : Text

/-- `InterruptedTransferInfo`, without its key.  The metadata stays a payload instead of its JSON
text. -/
structure InterruptedTransferInfo where
  bytesReceived : ℤ
  resumeChunkIndex : ℤ
  partialSha256 : Text
  senderIdentity : Text
  originalMetadata : Payload
  interruptedAt : ℤ
  expireAt : ℤ

/-- What the columns read as when they are NULL. -/
def InterruptedTransferInfo.null : InterruptedTransferInfo := ⟨0, 0, [], [], [], 0, 0⟩

/-- A row of `transfer_history`.  The columns of an interrupted transfer are NULL together. -/
structure TransferRow where
  record : TransferRecord
  columns : Option InterruptedTransferInfo

/-- The columns as a query reads them. -/
def TransferRow.resume (row : TransferRow) : InterruptedTransferInfo := row.columns.getD .null

structure Database where
  devices : DeviceTable
  transfers : Dict Text TransferRow
  faults : List Bool

namespace Database

/-- Open a connection and run a statement. -/
def access : Exec PyError Database Unit := do
  let db ← get
  modify fun db ↦ { db with faults := db.faults.tail }
  raiseIf (db.faults.headD false = true) .database

/-- SQLite stores the integer. -/
def Storable (n : ℤ) : Prop := -2 ^ 63 ≤ n ∧ n < 2 ^ 63

instance (n : ℤ) : Decidable (Storable n) := inferInstanceAs (Decidable (_ ∧ _))

/-- Bind an integer. -/
def bindInt (n : ℤ) : Exec PyError Database Unit := raiseIf (¬Storable n) .overflow

/-- Bind a text. -/
def bindText (t : Text) : Exec PyError Database Unit :=
  raiseIf (t.any isSurrogate = true) (.value .unencodable)

/-- What a column of type TEXT stores for a parameter, where `none` is NULL.  A number is stored as
its digits, a float as Python writes it. -/
def column : JsonValue → Except PyError (Option Text)
  | .null => .ok none
  | .bool b => .ok (some (lit (if b then "1" else "0")))
  | .int n => if Storable n then .ok (some (lit (toString n))) else .error .overflow
  | .float .nan _ => .ok none
  | .float _ text => .ok (some text)
  | .str t => if t.any isSurrogate then .error (.value .unencodable) else .ok (some t)
  | .arr _ _ | .obj _ _ => .error .database

/-- `add_or_update_device`.  The column `device_name` is NOT NULL. -/
def addOrUpdateDevice (deviceId deviceName : JsonValue) (publicKey identityPublicKeyB64 : Text)
    (pairedAt lastSeen : ℤ) : Exec PyError Database Unit := do
  access
  let deviceId ← ofResult (column deviceId)
  let deviceName ← ofResult (column deviceName)
  bindText publicKey
  bindText identityPublicKeyB64
  let deviceName ← ofResult (require .database deviceName)
  let device : TrustedDevice :=
    ⟨deviceId, deviceName, publicKey, identityPublicKeyB64, pairedAt, lastSeen⟩
  modify fun db ↦ { db with devices := db.devices.upsert device }

/-- `get_device_by_public_key`. -/
def getDeviceByPublicKey (identityPublicKeyB64 : Text) :
    Exec PyError Database (Option TrustedDevice) := do
  access
  bindText identityPublicKeyB64
  let db ← get
  return db.devices.byPublicKey identityPublicKeyB64

/-- `remove_device`. -/
def removeDevice (deviceId : Text) : Exec PyError Database Unit := do
  access
  bindText deviceId
  modify fun db ↦ { db with devices := db.devices.delete fun row ↦ row.deviceId = some deviceId }

/-- `remove_device_by_public_key`. -/
def removeDeviceByPublicKey (identityPublicKeyB64 : Text) : Exec PyError Database Unit := do
  access
  bindText identityPublicKeyB64
  modify fun db ↦ { db with
    devices := db.devices.delete fun row ↦ row.identityPublicKeyB64 = identityPublicKeyB64 }

/-- The row that `add_transfer` leaves: one that is there keeps everything but its status. -/
def upsertedRow (record : TransferRecord) (deviceId : Text) : Option TransferRow → TransferRow
  | some row => { row with record := { row.record with status := record.status } }
  | none => ⟨{ record with deviceId := .str deviceId }, none⟩

/-- `add_transfer`.  The column `device_id` is NOT NULL. -/
def addTransfer (transferId : Text) (record : TransferRecord) : Exec PyError Database Unit := do
  access
  bindText transferId
  let deviceId ← ofResult (column record.deviceId)
  bindText record.fileName
  bindInt record.fileSize
  bindInt record.startedAt
  bindText record.sha256
  let deviceId ← ofResult (require .database deviceId)
  modify fun db ↦ { db with
    transfers := db.transfers.set transferId (upsertedRow record deviceId (db.transfers.get transferId)) }

/-- The INTERRUPTED row of a transfer. -/
def interrupted (db : Database) (transferId : Text) : Option InterruptedTransferInfo :=
  match db.transfers.get transferId with
  | some row => if row.record.status = .interrupted then some row.resume else none
  | none => none

/-- `get_interrupted_transfer`. -/
def getInterruptedTransfer (transferId : Text) :
    Exec PyError Database (Option InterruptedTransferInfo) := do
  access
  bindText transferId
  let db ← get
  pure (db.interrupted transferId)

/-- `delete_interrupted_transfer`. -/
def deleteInterruptedTransfer (transferId : Text) : Exec PyError Database Unit := do
  access
  bindText transferId
  modify fun db ↦ { db with
    transfers := match db.transfers.get transferId with
      | some row =>
        if row.record.status = .interrupted then
          db.transfers.set transferId ⟨{ row.record with status := .failed }, none⟩
        else db.transfers
      | none => db.transfers }

/-- The row that `save_interrupted_transfer` leaves. -/
def interruptedRow (info : InterruptedTransferInfo) (now : ℤ) : Option TransferRow → TransferRow
  | some row => ⟨{ row.record with status := .interrupted }, some info⟩
  | none => ⟨⟨.str [], [], 0, .incoming, .interrupted, now, []⟩, some info⟩

/-- `save_interrupted_transfer`.  The JSON text of the metadata is ASCII. -/
def saveInterruptedTransfer (transferId : Text) (info : InterruptedTransferInfo) (now : ℤ) :
    Exec PyError Database Unit := do
  access
  bindText transferId
  bindInt info.interruptedAt
  bindInt info.bytesReceived
  bindInt info.resumeChunkIndex
  bindText info.partialSha256
  bindText info.senderIdentity
  bindInt info.expireAt
  modify fun db ↦ { db with
    transfers := db.transfers.set transferId (interruptedRow info now (db.transfers.get transferId)) }

/-- The rows that `list_interrupted_transfers_for_peer` selects. -/
def IsFrom (senderIdentity : Text) (row : TransferRow) : Prop :=
  row.record.status = .interrupted ∧ ∃ info ∈ row.columns, info.senderIdentity = senderIdentity

instance (senderIdentity : Text) (row : TransferRow) : Decidable (IsFrom senderIdentity row) :=
  inferInstanceAs (Decidable (_ ∧ ∃ info ∈ row.columns, _))

/-- The INTERRUPTED rows of a peer, each with its key, the newest first. -/
def interruptedFrom (db : Database) (senderIdentity : Text) : List (Text × InterruptedTransferInfo) :=
  let rows := db.transfers.items.filter fun item ↦ IsFrom senderIdentity item.2
  (rows.map fun item ↦ (item.1, item.2.resume)).mergeSort fun a b ↦
    b.2.interruptedAt ≤ a.2.interruptedAt

/-- `list_interrupted_transfers_for_peer`. -/
def listInterruptedTransfersForPeer (senderIdentity : Text) :
    Exec PyError Database (List (Text × InterruptedTransferInfo)) := do
  access
  bindText senderIdentity
  let db ← get
  pure (db.interruptedFrom senderIdentity)

/-- The rows that `expire_interrupted_transfers` selects. -/
def IsExpired (now : ℤ) (row : TransferRow) : Prop :=
  row.record.status = .interrupted ∧ ∃ info ∈ row.columns, info.expireAt ≤ now

instance (now : ℤ) (row : TransferRow) : Decidable (IsExpired now row) :=
  inferInstanceAs (Decidable (_ ∧ ∃ info ∈ row.columns, _))

/-- Update one of the selected rows. -/
def expireRow (transfers : Dict Text TransferRow) (item : Text × TransferRow) : Dict Text TransferRow :=
  transfers.set item.1 ⟨{ item.2.record with status := .failed }, none⟩

/-- `expire_interrupted_transfers`, which returns the number of rows. -/
def expireInterruptedTransfers (now : ℤ) : Exec PyError Database ℕ := do
  access
  bindInt now
  let db ← get
  let expired := db.transfers.items.filter fun item ↦ IsExpired now item.2
  modify fun db ↦ { db with transfers := expired.foldl expireRow db.transfers }
  return expired.length

end Database

end Ferry
