import Ferry.Service.Trust

/-!
# The state of the service

`FerryService` with its dictionaries of transfers, the sessions they belong to, the database and the
disk, and the operations that the handlers share.  A handler is a computation on this state; where it
awaits, it is split in two.
-/

namespace Ferry

open Exec Text

/-- The control messages that the handlers of incoming transfers send. -/
inductive ControlMessage
  | transferError (transferId : Text) (error : PyError)
  | transferResult (transferId : Text) (success : Bool) (sha256 : Text)
  | transferResumeRequest (payload : TransferResumeRequestPayload)
  deriving DecidableEq

/-- `PeerSession`, as far as the transfers read and write it.  `drains` says which of the next calls of
`writer.drain()` raise. -/
structure PeerSession where
  state : SessionState
  remoteAddr : Text
  remoteDeviceId : JsonValue
  drains : List Bool
  sent : List ControlMessage

/-- `ps.remote_device_id or ps.remote_addr`. -/
def PeerSession.deviceId (ps : PeerSession) : JsonValue := ps.remoteDeviceId.or (.str ps.remoteAddr)

/-- The fields that `BatchIncomingTransfer` and `BatchOutgoingTransfer` share. -/
structure BatchTransfer where
  batchName : Text
  totalItems : ℤ
  totalBytes : ℤ
  itemsCompleted : ℤ
  itemsFailed : ℤ
  bytesTransferred : ℤ

/-- A call of the listeners for finished transfers. -/
structure Completion where
  transferId : Text
  success : Bool
  fileName : Text
  direction : Direction

/-- `FerryService`.  A session is named by a number, which stands for the identity of the object. -/
structure FerryService where
  downloadDir : DownloadDir
  disk : Disk
  db : Database
  sessions : ℕ → PeerSession
  activeSessions : Dict Text ℕ
  incomingTransfers : Dict Text IncomingTransfer
  incomingPeers : Dict Text ℕ
  activeBatches : Dict Text BatchTransfer
  acceptTimeoutTasks : Dict Text ℕ
  lastChunkTime : Dict Text ℤ
  recordedTransferIds : List Text
  completions : List Completion

/-- A method of `FerryService`. -/
abbrev Handler (α : Type) : Type := Exec PyError FerryService α

namespace FerryService

/-! ## Access to the database, the sessions and the transfers -/

def onDb {α : Type} (m : Exec PyError Database α) : Handler α :=
  zoom FerryService.db (fun db s ↦ { s with db }) m

/-- A method call on a transfer that is not in the dictionary, which returns the object as well. -/
def onDetached {α : Type} (incoming : IncomingTransfer) (m : Method α) :
    Handler (α × IncomingTransfer) := fun s ↦
  let (result, w) := m ⟨s.disk, incoming⟩
  (result.map fun a ↦ (a, w.self), { s with disk := w.disk })

/-- A method call on the transfer that is registered under an id. -/
def onIncoming {α : Type} (transferId : Text) (m : Method α) : Handler α := do
  let s ← get
  match s.incomingTransfers.get transferId with
  | none => throw .attribute
  | some incoming =>
    zoom (fun s ↦ ⟨s.disk, incoming⟩)
      (fun w s ↦ { s with
        disk := w.disk
        incomingTransfers := s.incomingTransfers.set transferId w.self }) m

/-- `send_encrypted`.  The frame is written before `drain` may raise. -/
def sendEncrypted (ps : ℕ) (message : ControlMessage) : Handler Unit := do
  let s ← get
  let session := s.sessions ps
  raiseIf (session.state ∈ SessionState.refusesToSend) (.runtime (.cannotSend session.state))
  modify fun s ↦ { s with
    sessions := Function.update s.sessions ps
      { session with drains := session.drains.tail, sent := session.sent ++ [message] } }
  raiseIf (session.drains.headD false = true) .osError

/-! ## Bookkeeping -/

/-- `_incoming_transfers.pop(transfer_id, None)`. -/
def popIncoming (transferId : Text) : Handler Unit :=
  modify fun s ↦ { s with incomingTransfers := s.incomingTransfers.pop transferId }

/-- `_incoming_peers.pop(transfer_id, None)`. -/
def popPeer (transferId : Text) : Handler Unit :=
  modify fun s ↦ { s with incomingPeers := s.incomingPeers.pop transferId }

/-- Drop the time of the last chunk and the acceptance timeout, which is cancelled. -/
def popTimers (transferId : Text) : Handler Unit :=
  modify fun s ↦ { s with
    acceptTimeoutTasks := s.acceptTimeoutTasks.pop transferId
    lastChunkTime := s.lastChunkTime.pop transferId }

/-- `_record_transfer_once`. -/
def recordTransferOnce (transferId : Text) (record : TransferRecord) : Handler Unit := do
  let s ← get
  if transferId ∈ s.recordedTransferIds then pure ()
  else
    tryCatch (do
      onDb (Database.addTransfer transferId record)
      modify fun s ↦ { s with recordedTransferIds := transferId :: s.recordedTransferIds }) fun _ ↦
        pure ()

/-- `_notify_transfer_complete`. -/
def notifyTransferComplete (transferId : Text) (success : Bool) (fileName : Text)
    (direction : Direction) : Handler Unit :=
  modify fun s ↦ { s with
    completions := s.completions ++ [⟨transferId, success, fileName, direction⟩] }

/-- The history entry of an incoming transfer. -/
def incomingRecord (ps : PeerSession) (metadata : TransferMetadata) (status : TransferStatus)
    (sha256 : Text) : TransferRecord where
  deviceId := ps.deviceId
  fileName := metadata.fileName
  fileSize := metadata.fileSize
  direction := .incoming
  status := status
  startedAt := metadata.createdAt
  sha256 := sha256

end FerryService

end Ferry
