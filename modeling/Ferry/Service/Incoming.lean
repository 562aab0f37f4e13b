import Ferry.Service.State

/-!
# Incoming transfers in the service

The handlers for chunks and for TRANSFER_COMPLETE, the user's `request_resume`, and the end of a
session loop.
-/

namespace Ferry

open Exec Text

namespace FerryService

open IncomingTransfer

/-! ## Chunks -/

/-- The progress of the batch that a chunk belongs to. -/
def countBatchBytes (batchId : Text) (length : ℕ) : Handler Unit :=
  modify fun s ↦
    match s.activeBatches.get batchId with
    | none => s
    | some batch => { s with
        activeBatches := s.activeBatches.set batchId
          { batch with bytesTransferred := batch.bytesTransferred + length } }

/-- The TRANSFER_ERROR and the history entry of a transfer whose `.part` file could not be written. -/
def reportIoError (transferId : Text) (metadata : TransferMetadata) (e : PyError) :
    Option ℕ → Handler Unit
  | none => pure ()
  | some ps => do
    let s ← get
    tryCatch (sendEncrypted ps (.transferError transferId e)) fun _ ↦ pure ()
    recordTransferOnce transferId (incomingRecord (s.sessions ps) metadata .failed [])

/-- What `_on_chunk_received` does after an exception of `receive_chunk`. -/
def chunkFailed (transferId : Text) (metadata : TransferMetadata) (e : PyError) : Handler Unit := do
  if e.isTransferError then
    let s ← get
    popPeer transferId
    popIncoming transferId
    popTimers transferId
    reportIoError transferId metadata e (s.incomingPeers.get transferId)
    notifyTransferComplete transferId false metadata.fileName .incoming
  else if e.isValueOrRuntimeError then
    onIncoming transferId cancel
    modify fun s ↦ { s with
      incomingTransfers := s.incomingTransfers.pop transferId
      lastChunkTime := s.lastChunkTime.pop transferId }
  else throw e

/-- `_on_chunk_received`, at the monotonic time `now`. -/
def onChunkReceived (now : ℤ) (plaintext : Bytes) : Handler Unit := do
  let s ← get
  match decodeChunkFrame plaintext with
  | .error e => raiseIf (¬e.isValueError) e
  | .ok chunk =>
    match s.incomingTransfers.get chunk.transferId with
    | none => pure ()
    | some incoming => do
      modify fun s ↦ { s with lastChunkTime := s.lastChunkTime.set chunk.transferId now }
      tryCatch (do
        onIncoming chunk.transferId (receiveChunk chunk)
        if incoming.metadata.batchId ≠ [] then
          countBatchBytes incoming.metadata.batchId chunk.data.length
        else pure ()) (chunkFailed chunk.transferId incoming.metadata)

/-! ## Completion -/

/-- The history entry and the notification of a batch whose last item has arrived. -/
def finishBatch (ps : PeerSession) (batchId : Text) (batch : BatchTransfer) (startedAt : ℤ) :
    Handler Unit := do
  let success := batch.itemsFailed = 0
  modify fun s ↦ { s with activeBatches := s.activeBatches.pop batchId }
  recordTransferOnce batchId {
    deviceId := ps.deviceId
    fileName := batch.batchName
    fileSize := batch.totalBytes
    direction := .incoming
    status := if success then .completed else .failed
    startedAt := startedAt
    sha256 := [] }
  notifyTransferComplete batchId success batch.batchName .incoming

/-- The item of a batch that has arrived, or has failed. -/
def countBatchItem (ps : PeerSession) (metadata : TransferMetadata) (success : Bool) :
    Handler Unit := do
  let s ← get
  match s.activeBatches.get metadata.batchId with
  | none => pure ()
  | some batch => do
    let batch := if success then { batch with itemsCompleted := batch.itemsCompleted + 1 }
      else { batch with itemsFailed := batch.itemsFailed + 1 }
    modify fun s ↦ { s with activeBatches := s.activeBatches.set metadata.batchId batch }
    if batch.itemsCompleted + batch.itemsFailed = batch.totalItems then
      finishBatch ps metadata.batchId batch metadata.createdAt
    else pure ()

/-- `_on_transfer_complete` after the TRANSFER_RESULT is sent. -/
def recordResult (ps : PeerSession) (metadata : TransferMetadata) (transferId : Text)
    (success : Bool) (sha256 : Text) : Handler Unit := do
  popIncoming transferId
  popPeer transferId
  if metadata.batchId = [] then
    recordTransferOnce transferId
      (incomingRecord ps metadata (if success then .completed else .failed) sha256)
    notifyTransferComplete transferId success metadata.fileName .incoming
  else countBatchItem ps metadata success

/-- `_on_transfer_complete`. -/
def onTransferComplete (ps : ℕ) (transferId : Text) : Handler Unit := do
  let s ← get
  match s.incomingTransfers.get transferId with
  | none => pure ()
  | some incoming => do
    popTimers transferId
    let success ← onIncoming transferId finalise
    let sha256 := if success then incoming.metadata.sha256 else []
    sendEncrypted ps (.transferResult transferId success sha256)
    recordResult (s.sessions ps) incoming.metadata transferId success sha256

/-! ## Resuming -/

/-- The object that `request_resume` builds from the metadata of a record. -/
def restored (metadata : TransferMetadata) (dir : DownloadDir) : IncomingTransfer :=
  { IncomingTransfer.new metadata dir with
    tempPath := some (metadata.partPath dir)
    state := .interrupted }

/-- The part of `request_resume` from the new object to the request that is sent. -/
def sendResumeRequest (ps : ℕ) (transferId : Text) (info : InterruptedTransferInfo)
    (metadata : TransferMetadata) : Handler (Option TransferResumeRequestPayload) := do
  let s ← get
  let prepared ← tryCatch (do
    let prepared ← onDetached (restored metadata s.downloadDir)
      (prepareResumeRequest (some info.bytesReceived) (some info.resumeChunkIndex))
    pure (some prepared)) fun _ ↦ pure none
  match prepared with
  | none => pure none
  | some (payload, incoming) => do
    modify fun s ↦ { s with
      incomingTransfers := s.incomingTransfers.set transferId incoming
      incomingPeers := s.incomingPeers.set transferId ps }
    sendEncrypted ps (.transferResumeRequest payload)
    pure (some payload)

/-- `request_resume` up to the wait for the answer: the request that was sent, or `none` when it
returned `False`. -/
def requestResume (now : ℤ) (remoteAddr transferId : Text) :
    Handler (Option TransferResumeRequestPayload) := do
  let s ← get
  match s.activeSessions.get remoteAddr with
  | none => pure none
  | some ps => do
    let info ← onDb (Database.getInterruptedTransfer transferId)
    match info with
    | none => pure none
    | some info =>
      match TransferMetadata.fromDict now info.originalMetadata with
      | .error _ => pure none
      | .ok metadata => sendResumeRequest ps transferId info metadata

/-- `_incoming_transfers.pop` and `_incoming_peers.pop` when a resume is given up. -/
def abandonResume (transferId : Text) : Handler Bool := do
  popIncoming transferId
  popPeer transferId
  pure false

/-- `request_resume` after the answer, while its transfer is still registered. -/
def resumeAnswered (transferId : Text) (chunkIndex : ℤ) (accepted : Bool) : Handler Bool := do
  if accepted then
    tryCatch (do
      onIncoming transferId (resume chunkIndex)
      pure true) fun _ ↦ abandonResume transferId
  else abandonResume transferId

/-! ## The end of a session loop -/

/-- One round of the loop of `_cancel_incoming_transfer_for_peer`. -/
def cancelForPeer (ps : ℕ) (transferId : Text) (incoming : IncomingTransfer) : Handler Unit := do
  popIncoming transferId
  popPeer transferId
  popTimers transferId
  let s ← get
  let (_, incoming) ← onDetached incoming cancel
  let status := if incoming.state = .interrupted then .interrupted else .failed
  recordTransferOnce transferId (incomingRecord (s.sessions ps) incoming.metadata status [])
  notifyTransferComplete transferId false incoming.metadata.fileName .incoming

def cancelEach (ps : ℕ) : List (Text × IncomingTransfer) → Handler Unit
  | [] => pure ()
  | (transferId, incoming) :: rest => do
    cancelForPeer ps transferId incoming
    cancelEach ps rest

/-- The transfers of a session, in the order in which they were registered. -/
def incomingOf (s : FerryService) (ps : ℕ) : List (Text × IncomingTransfer) :=
  s.incomingTransfers.items.filter fun item ↦ s.incomingPeers.get item.1 = some ps

/-- `_cancel_incoming_transfer_for_peer`. -/
def cancelIncomingTransferForPeer (ps : ℕ) : Handler Unit := do
  let s ← get
  cancelEach ps (s.incomingOf ps)

/-- `ps.session.transition`. -/
def transitionSession (ps : ℕ) (new : SessionState) : Handler Unit := do
  let s ← get
  let session := s.sessions ps
  raiseIf (new ∉ session.state.validTransitions)
    (.runtime (.invalidSessionTransition session.state new))
  modify fun s ↦ { s with sessions := Function.update s.sessions ps { session with state := new } }

/-- The `finally` of `_run_session_loop`, without the outgoing transfers. -/
def closeSession (ps : ℕ) : Handler Unit := do
  cancelIncomingTransferForPeer ps
  transitionSession ps .closing
  transitionSession ps .disconnected

/-- `_run_session_loop`: its body may break or raise, and either ends in the `finally`. -/
def runSessionLoop (ps : ℕ) (body : Handler Unit) : Handler Unit := do
  tryCatch body fun _ ↦ pure ()
  closeSession ps

end FerryService

end Ferry
