import Ferry.Service.State
import Ferry.Service.Message
import Ferry.Transfer.Outgoing

/-!
# The daemon and its tasks

`FerryService` with everything that runs on its event loop: a session loop for every peer, the calls
of the user, and the acceptance timers.  A coroutine is a list of segments between two awaits.  A
segment runs without interruption; at an await it leaves its local variables behind, and other
segments run until it is resumed.  Objects are numbered, and a number stands for the identity of the
object.
-/

namespace Ferry

open Exec Text

namespace Daemon

/-- The wall clock in milliseconds and the monotonic clock in seconds. -/
structure Clock where
  wall : ℤ
  monotonic : ℤ

/-- The reasons of a TRANSFER_REJECT, a BATCH_REJECT and a TRANSFER_RESUME_REJECT. -/
inductive RejectReason
  | invalidRequest
  | busy
  | timeoutExpired
  | userRejected
  | transferNotFound
  | wrongPeer
  | partialCorrupt
  | sourceModified
  deriving DecidableEq

/-- The frames that the daemon encrypts. -/
inductive Frame
  | chunk (frame : Bytes)
  | capabilities
  | pairDecision (accept : Bool)
  | transferRequest (metadata : TransferMetadata)
  | transferAccept (transferId : Text)
  | transferReject (transferId : Text) (reason : RejectReason)
  | transferComplete (transferId : Text)
  | transferResult (transferId : Text) (success : Bool) (sha256 : Text)
  | transferCancel (transferId reason : Text)
  | invalidRequest (transferId : JsonValue) (error : PyError)
  | ioFailure (transferId : Text) (error : PyError)
  | resumeRequest (payload : TransferResumeRequestPayload)
  | resumeAccept (transferId : Text) (resumeChunkIndex : ℤ)
  | resumeReject (transferId : JsonValue) (reason : RejectReason)
  | batchRequest (batchId batchName : Text) (totalItems totalBytes createdAt : ℤ)
  | batchAccept (batchId : Text)
  | batchReject (batchId : Text) (reason : RejectReason)
  | batchCancel (batchId : Text)
  | batchComplete (batchId : Text)

/-- The strings that `_signal_transfer_event` passes on. -/
inductive Response
  | accept
  | reject
  | cancel
  deriving DecidableEq

/-- What a handler of the session loop does after its await. -/
inductive LoopAwait
  | reply
  | quietReply
  | resumeAccept (transferId : Text)
  | chunkError (transferId : Text) (metadata : TransferMetadata) (owner : ℕ)
  | transferResult (transferId : Text) (object : ℕ) (success : Bool) (sha256 : Text)

/-- The session loop reads the next frame, is inside a handler that awaits, or has ended. -/
inductive LoopState
  | reading
  | handling (await : LoopAwait)
  | ended

def LoopState.isHandling : LoopState → Bool
  | handling _ => true
  | _ => false

/-- `PeerSession`.  The numbers in the two dictionaries of events name waiters.  `sendFaults` says
which of the next calls of `encrypt_frame` raise, by the length of a plaintext that is too long. -/
structure PeerSession where
  state : SessionState
  remoteAddr : Text
  remote : RemotePeer
  loop : LoopState
  closed : Bool
  sendFaults : List (Option ℕ)
  sent : List Frame
  transferEvents : Dict Text ℕ
  resultEvents : Dict Text ℕ

/-- `ps.remote_device_id or ps.remote_addr`. -/
def PeerSession.deviceId (ps : PeerSession) : JsonValue := ps.remote.deviceId.or (.str ps.remoteAddr)

/-- The two values of `BatchState` that some batch takes. -/
inductive BatchState
  | requested
  | accepted
  deriving DecidableEq

/-- `BatchIncomingTransfer` and `BatchOutgoingTransfer`.  The direction stands for the class, and
`peer` records the session of the batch. -/
structure Batch extends BatchTransfer where
  state : BatchState
  direction : Direction
  peer : ℕ

/-- The arguments of a sleeping `_acceptance_timeout`.  `object` records the transfer that the task
was started for. -/
structure AcceptanceTimer where
  ps : ℕ
  transferId : Text
  metadata : TransferMetadata
  object : ℕ

/-- The dictionaries of the incoming transfers, and the acceptance timers that still sleep.
`accepted` records the transfers that the user has accepted. -/
structure Ledger where
  incomingTransfers : Dict Text ℕ
  incomingPeers : Dict Text ℕ
  acceptTimeoutTasks : Dict Text ℕ
  lastChunkTime : Dict Text ℤ
  timers : Dict ℕ AcceptanceTimer
  accepted : List ℕ

namespace Ledger

def empty : Ledger := ⟨∅, ∅, ∅, ∅, ∅, []⟩

/-- `_incoming_transfers.pop(transfer_id, None)`. -/
def popIncoming (ledger : Ledger) (transferId : Text) : Ledger :=
  { ledger with incomingTransfers := ledger.incomingTransfers.pop transferId }

/-- `_incoming_peers.pop(transfer_id, None)`. -/
def popPeer (ledger : Ledger) (transferId : Text) : Ledger :=
  { ledger with incomingPeers := ledger.incomingPeers.pop transferId }

/-- `_last_chunk_time.pop(transfer_id, None)`. -/
def popLastChunk (ledger : Ledger) (transferId : Text) : Ledger :=
  { ledger with lastChunkTime := ledger.lastChunkTime.pop transferId }

/-- `_accept_timeout_tasks.pop(transfer_id, None)`, as the dictionary that is left. -/
def popTimeout (ledger : Ledger) (transferId : Text) : Ledger :=
  { ledger with acceptTimeoutTasks := ledger.acceptTimeoutTasks.pop transferId }

/-- Pop the acceptance timeout and cancel its task. -/
def cancelTimeout (ledger : Ledger) (transferId : Text) : Ledger :=
  match ledger.acceptTimeoutTasks.get transferId with
  | none => ledger.popTimeout transferId
  | some timer => { ledger.popTimeout transferId with timers := ledger.timers.pop timer }

/-- Assign `_incoming_transfers[transfer_id]` and `_incoming_peers[transfer_id]`. -/
def register (ledger : Ledger) (transferId : Text) (object ps : ℕ) : Ledger :=
  { ledger with
    incomingTransfers := ledger.incomingTransfers.set transferId object
    incomingPeers := ledger.incomingPeers.set transferId ps }

/-- The user accepts a transfer: its acceptance timeout is cancelled. -/
def accept (ledger : Ledger) (transferId : Text) (object : ℕ) : Ledger :=
  { ledger.cancelTimeout transferId with accepted := object :: ledger.accepted }

/-- Drop a transfer from the four dictionaries. -/
def drop (ledger : Ledger) (transferId : Text) : Ledger :=
  (((ledger.popIncoming transferId).popPeer transferId).cancelTimeout transferId).popLastChunk
    transferId

/-- Drop a transfer from the first two dictionaries. -/
def forget (ledger : Ledger) (transferId : Text) : Ledger :=
  (ledger.popIncoming transferId).popPeer transferId

end Ledger

/-! ## Suspended coroutines -/

/-- A file of a batch with its relative path, and with what `uuid.uuid4()` and `mimetypes` return for
it. -/
structure BatchItem where
  sourcePath : Path
  relativePath : Text
  transferId : Text
  mimeType : Text

/-- The local variables of `send_batch`. -/
structure BatchSend where
  ps : ℕ
  remoteAddr : Text
  batchId : Text
  batch : ℕ
  createdAt : ℤ
  remaining : List BatchItem
  successCount : ℤ

/-- The local variables of `send_file`, with those of the `send_batch` that awaits it. -/
structure FileSend where
  ps : ℕ
  xfer : ℕ
  metadata : TransferMetadata
  startedAt : ℤ
  caller : Option BatchSend

/-- Where `send_file` awaits. -/
inductive FileAwait
  | request
  | response (waiter : ℕ)
  | chunk (batch : Option ℕ) (length : ℕ) (stream : OutgoingTransfer.ChunkStream)
  | sourceError
  | cancelled
  | complete
  | result (waiter : ℕ)

/-- Where `send_batch` awaits, outside `send_file`. -/
inductive BatchAwait
  | request
  | response (waiter : ℕ)
  | complete

/-- A suspended coroutine that is no session loop. -/
inductive Await
  | acceptanceTimeout (timer : AcceptanceTimer)
  | rejectPairing (ps : ℕ)
  | cancelBatch (batchId : Text) (batch : ℕ) (size : ℕ) (remaining : List ℕ)
  | cancelIncoming (transferId : Text) (object ps : ℕ)
  | resumeRequest (transferId : Text) (object ps : ℕ) (resumeChunkIndex : ℤ)
  | resumeResponse (transferId : Text) (object ps : ℕ) (resumeChunkIndex : ℤ) (waiter : ℕ)
  | file (send : FileSend) (await : FileAwait)
  | batch (send : BatchSend) (await : BatchAwait)

end Daemon

/-- `FerryService` with its suspended coroutines.  All objects take their numbers from `next`.
`delivered` records the incoming transfers whose `finalise` returned `True` and the outgoing ones
whose receiver confirmed the file. -/
structure Daemon where
  downloadDir : DownloadDir
  publicKeyB64 : Text
  disk : Disk
  db : Database
  next : ℕ
  sessions : ℕ → Daemon.PeerSession
  activeSessions : Dict Text ℕ
  objects : ℕ → IncomingTransfer
  outgoing : ℕ → OutgoingTransfer
  batches : ℕ → Daemon.Batch
  responses : ℕ → List Daemon.Response
  results : ℕ → List Bool
  ledger : Daemon.Ledger
  activeOutgoingTransfers : Dict Text (ℕ × ℕ)
  activeBatches : Dict Text ℕ
  recordedTransferIds : List Text
  completions : List Completion
  tasks : Dict ℕ Daemon.Await
  delivered : List ℕ

namespace Daemon

/-- A segment of a coroutine. -/
abbrev Segment (α : Type) : Type := Exec PyError Daemon α

/-! ## Access to the parts of the state -/

/-- The number of a new object. -/
def allocate : Segment ℕ := fun s ↦ (.ok s.next, { s with next := s.next + 1 })

def onDb {α : Type} (m : Exec PyError Database α) : Segment α :=
  zoom Daemon.db (fun db s ↦ { s with db }) m

def onLedger (f : Ledger → Ledger) : Segment Unit := modify fun s ↦ { s with ledger := f s.ledger }

def onSession (ps : ℕ) (f : PeerSession → PeerSession) : Segment Unit :=
  modify fun s ↦ { s with sessions := Function.update s.sessions ps (f (s.sessions ps)) }

def onBatch (batch : ℕ) (f : Batch → Batch) : Segment Unit :=
  modify fun s ↦ { s with batches := Function.update s.batches batch (f (s.batches batch)) }

/-- A method call on an `IncomingTransfer`. -/
def onObject {α : Type} (object : ℕ) (m : Method α) : Segment α :=
  zoom (fun s ↦ ⟨s.disk, s.objects object⟩)
    (fun w s ↦ { s with disk := w.disk, objects := Function.update s.objects object w.self }) m

/-- A method call on an `OutgoingTransfer`. -/
def onOutgoing {α : Type} (xfer : ℕ) (m : Sending α) : Segment α :=
  zoom (fun s ↦ ⟨s.disk, s.outgoing xfer⟩)
    (fun w s ↦ { s with disk := w.disk, outgoing := Function.update s.outgoing xfer w.self }) m

/-- A new `IncomingTransfer`. -/
def newObject (incoming : IncomingTransfer) : Segment ℕ := do
  let object ← allocate
  modify fun s ↦ { s with objects := Function.update s.objects object incoming }
  pure object

/-- A new batch object, registered under its id. -/
def registerBatch (batchId : Text) (batch : Batch) : Segment ℕ := do
  let object ← allocate
  modify fun s ↦ { s with
    batches := Function.update s.batches object batch
    activeBatches := s.activeBatches.set batchId object }
  pure object

/-- `_active_batches.pop(batch_id, None)`. -/
def popBatch (batchId : Text) : Segment Unit :=
  modify fun s ↦ { s with activeBatches := s.activeBatches.pop batchId }

/-! ## Sending -/

/-- `ps.session.encrypt_frame` and `ps.writer.write`. -/
def writeFrame (ps : ℕ) (frame : Frame) : Segment Unit := do
  let s ← get
  onSession ps fun session ↦ { session with sendFaults := session.sendFaults.tail }
  match (s.sessions ps).sendFaults.headD none with
  | some length => throw (.value (.payloadTooLong length))
  | none => onSession ps fun session ↦ { session with sent := session.sent ++ [frame] }

/-- `send_encrypted` up to `await ps.writer.drain()`. -/
def sendEncrypted (ps : ℕ) (frame : Frame) : Segment Unit := do
  let s ← get
  raiseIf ((s.sessions ps).state ∈ SessionState.refusesToSend)
    (.runtime (.cannotSend (s.sessions ps).state))
  writeFrame ps frame

/-- The outcome of the `drain`. -/
def drained (failed : Bool) : Segment Unit := raiseIf (failed = true) .osError

/-- `try: await send_encrypted(..) except Exception: pass`, up to the `drain`: where it awaits when the
frame is written, and what follows when it is not. -/
def sendQuietly {α : Type} (ps : ℕ) (frame : Frame) (await : α) (otherwise : Segment α) : Segment α := do
  let written ← tryCatch (do
    sendEncrypted ps frame
    pure true) fun _ ↦ pure false
  if written then pure await else otherwise

/-! ## Waiting -/

/-- `_wait_for_transfer_response` up to `event.wait()`. -/
def waitForTransferResponse (ps : ℕ) (transferId : Text) : Segment ℕ := do
  let waiter ← allocate
  modify fun s ↦ { s with responses := Function.update s.responses waiter [] }
  onSession ps fun session ↦ { session with
    transferEvents := session.transferEvents.set transferId waiter }
  pure waiter

/-- `_wait_for_transfer_result` up to `event.wait()`. -/
def waitForTransferResult (ps : ℕ) (transferId : Text) : Segment ℕ := do
  let waiter ← allocate
  modify fun s ↦ { s with results := Function.update s.results waiter [] }
  onSession ps fun session ↦ { session with
    resultEvents := session.resultEvents.set transferId waiter }
  pure waiter

/-- `_wait_for_transfer_response` after `event.wait()`. -/
def transferResponse (ps : ℕ) (transferId : Text) (waiter : ℕ) : Segment Response := do
  let s ← get
  raiseIf ((s.sessions ps).transferEvents.get transferId = none) (.key transferId)
  onSession ps fun session ↦ { session with transferEvents := session.transferEvents.pop transferId }
  pure ((s.responses waiter).headD .reject)

/-- `_wait_for_transfer_result` after `event.wait()`. -/
def transferResult (ps : ℕ) (transferId : Text) (waiter : ℕ) : Segment Bool := do
  let s ← get
  raiseIf ((s.sessions ps).resultEvents.get transferId = none) (.key transferId)
  onSession ps fun session ↦ { session with resultEvents := session.resultEvents.pop transferId }
  pure ((s.results waiter).headD false)

/-- `_signal_transfer_event` on `_transfer_events`. -/
def signalResponse (ps : ℕ) (transferId : Text) (value : Response) : Segment Unit :=
  modify fun s ↦
    match (s.sessions ps).transferEvents.get transferId with
    | none => s
    | some waiter => { s with
        responses := Function.update s.responses waiter (s.responses waiter ++ [value]) }

/-- `_signal_transfer_event` on `_result_events`. -/
def signalResult (ps : ℕ) (transferId : Text) (value : Bool) : Segment Unit :=
  modify fun s ↦
    match (s.sessions ps).resultEvents.get transferId with
    | none => s
    | some waiter => { s with results := Function.update s.results waiter (s.results waiter ++ [value]) }

/-- Wake whoever waits for the answer to a transfer that is cancelled. -/
def signalCancel (ps : ℕ) (transferId : Text) : Segment Unit := do
  signalResponse ps transferId .cancel
  signalResult ps transferId false

/-! ## Outcomes -/

/-- `_record_transfer_once`. -/
def recordTransferOnce (transferId : Text) (record : TransferRecord) : Segment Unit := do
  let s ← get
  if transferId ∈ s.recordedTransferIds then pure ()
  else
    tryCatch (do
      onDb (Database.addTransfer transferId record)
      modify fun s ↦ { s with recordedTransferIds := transferId :: s.recordedTransferIds }) fun _ ↦
        pure ()

/-- `_notify_transfer_complete`. -/
def notifyTransferComplete (transferId : Text) (success : Bool) (fileName : Text)
    (direction : Direction) : Segment Unit :=
  modify fun s ↦ { s with
    completions := s.completions ++ [⟨transferId, success, fileName, direction⟩] }

/-- The history entry of an incoming transfer. -/
def incomingRecord (deviceId : JsonValue) (metadata : TransferMetadata) (status : TransferStatus)
    (startedAt : ℤ) (sha256 : Text) : TransferRecord where
  deviceId := deviceId
  fileName := metadata.fileName
  fileSize := metadata.fileSize
  direction := .incoming
  status := status
  startedAt := startedAt
  sha256 := sha256

/-- The history entry and the notification of an incoming transfer of a session. -/
def reportIncoming (transferId : Text) (ps : ℕ) (metadata : TransferMetadata) (status : TransferStatus)
    (startedAt : ℤ) (sha256 : Text) : Segment Unit := do
  let s ← get
  recordTransferOnce transferId
    (incomingRecord (s.sessions ps).deviceId metadata status startedAt sha256)
  notifyTransferComplete transferId (status = .completed) metadata.fileName .incoming

/-- A method call on an `IncomingTransfer` whose outcome nobody reads. -/
def cancelObject (object : ℕ) : Segment Unit := onObject object IncomingTransfer.cancel

end Daemon

end Ferry
