import Ferry.Daemon.Commands

/-!
# Sending files and batches

`send_file` and `send_batch`, from one await to the next.  `send_batch` awaits `send_file`, which
therefore carries the local variables of its caller along.
-/

namespace Ferry

open Exec Text

namespace Daemon

open OutgoingTransfer (ChunkStream)

/-! ## One file -/

/-- How a segment of `send_file` ends. -/
inductive FileFlow
  | returned (result : Bool)
  | await (send : FileSend) (await : FileAwait)

/-- The history entry and the notification of a file that belongs to no batch. -/
def reportFile (send : FileSend) (status : TransferStatus) (sha256 : Text) : Segment Unit := do
  let s ← get
  if send.metadata.batchId = [] then
    recordTransferOnce send.metadata.transferId {
      deviceId := (s.sessions send.ps).deviceId
      fileName := send.metadata.fileName
      fileSize := send.metadata.fileSize
      direction := .outgoing
      status := status
      startedAt := send.startedAt
      sha256 := sha256 }
    notifyTransferComplete send.metadata.transferId (status = .completed) send.metadata.fileName
      .outgoing
  else pure ()

/-- `send_file` reports that it did not succeed. -/
def fileUnsent (send : FileSend) (status : TransferStatus) : Segment FileFlow := do
  reportFile send status send.metadata.sha256
  pure (.returned false)

/-- `xfer._cancelled or xfer.state == TransferState.CANCELLING`. -/
def isCancelled (s : Daemon) (xfer : ℕ) : Bool :=
  (s.outgoing xfer).cancelled || (s.outgoing xfer).state = .cancelling

/-- What a round of the loop over `stream_chunks()` comes to. -/
inductive Pulled
  | frame (length : ℕ) (stream : ChunkStream)
  | finished
  | failed

/-- One round of the loop over `stream_chunks()`, up to the `drain`. -/
def pullFrame (send : FileSend) (pull : Sending (Option (Bytes × ChunkStream))) : Segment Pulled :=
  tryCatch (do
    let next ← onOutgoing send.xfer pull
    let s ← get
    match next with
    | none => pure .finished
    | some (frame, stream) =>
      if s.isCancelled send.xfer then pure .finished
      else do
        writeFrame send.ps (.chunk frame)
        pure (.frame (frame.length - chunkHeaderSize) stream)) fun e ↦
    if e.isTransferError then pure .failed else throw e

/-- `send_file` after the loop over `stream_chunks()`. -/
def streamed (send : FileSend) : Segment FileFlow := do
  let s ← get
  if s.isCancelled send.xfer then
    sendQuietly send.ps (.transferCancel send.metadata.transferId (lit "USER_CANCELLED"))
      (.await send .cancelled) (fileUnsent send .cancelled)
  else
    sendEncrypted send.ps (.transferComplete send.metadata.transferId)
    pure (.await send .complete)

/-- `send_file` from a round of the loop over `stream_chunks()` on. -/
def streamFile (send : FileSend) (batch : Option ℕ) (pull : Sending (Option (Bytes × ChunkStream))) :
    Segment FileFlow := do
  let pulled ← pullFrame send pull
  match pulled with
  | .frame length stream => pure (.await send (.chunk batch length stream))
  | .finished => streamed send
  | .failed =>
    sendQuietly send.ps (.transferCancel send.metadata.transferId (lit "IO_ERROR"))
      (.await send .sourceError) (fileUnsent send .failed)

/-- The first round of `stream_chunks()`. -/
def startStream : Sending (Option (Bytes × ChunkStream)) := do
  let stream ← OutgoingTransfer.start 0
  OutgoingTransfer.advance stream

/-- `send_file` after the answer of the receiver. -/
def fileAnswered (send : FileSend) (response : Response) : Segment FileFlow := do
  let s ← get
  if response = .accept then
    streamFile send
      (if send.metadata.batchId = [] then none else s.activeBatches.get send.metadata.batchId) startStream
  else
    fileUnsent send
      (if response = .cancel ∨ (s.outgoing send.xfer).cancelled = true then .cancelled else .rejected)

/-- `send_file` after the result of the receiver. -/
def fileResult (send : FileSend) (result : Bool) : Segment FileFlow := do
  reportFile send (if result then .completed else .failed) (if result then send.metadata.sha256 else [])
  pure (.returned result)

/-- `send_file` after an await.  A wait that failed has timed out. -/
def resumeFile (send : FileSend) (failed : Bool) : FileAwait → Segment FileFlow
  | .request => do
    drained failed
    let waiter ← waitForTransferResponse send.ps send.metadata.transferId
    pure (.await send (.response waiter))
  | .response waiter => do
    let response ← if failed then pure .reject
      else transferResponse send.ps send.metadata.transferId waiter
    fileAnswered send response
  | .chunk batch length stream => do
    drained failed
    match batch with
    | none => pure ()
    | some batch => onBatch batch fun batch ↦ { batch with
        bytesTransferred := batch.bytesTransferred + length }
    streamFile send batch (OutgoingTransfer.advance stream)
  | .sourceError => fileUnsent send .failed
  | .cancelled => fileUnsent send .cancelled
  | .complete => do
    drained failed
    let waiter ← waitForTransferResult send.ps send.metadata.transferId
    pure (.await send (.result waiter))
  | .result waiter => do
    let result ← if failed then pure false
      else transferResult send.ps send.metadata.transferId waiter
    fileResult send result

/-- `_active_outgoing_transfers.pop(transfer_id, None)`. -/
def popOutgoing (transferId : Text) : Segment Unit :=
  modify fun s ↦ { s with activeOutgoingTransfers := s.activeOutgoingTransfers.pop transferId }

/-- The `finally` of `send_file`. -/
def unregistering (transferId : Text) (m : Segment FileFlow) : Segment FileFlow := do
  let flow ← tryCatch m fun e ↦ do
    popOutgoing transferId
    throw e
  match flow with
  | .returned result => do
    popOutgoing transferId
    pure (.returned result)
  | .await send await => pure (.await send await)

/-- `build_metadata` as `send_file` calls it: an `OSError` or a `ValueError` is logged. -/
def buildMetadata (xfer : ℕ) (mimeType : Text) (now : ℤ) : Segment (Option TransferMetadata) := do
  let s ← get
  tryCatch (do
    let metadata ← onOutgoing xfer (OutgoingTransfer.buildMetadata s.publicKeyB64 mimeType now)
    pure (some metadata)) fun e ↦
    if e.IsOsError ∨ e.isValueError = true then pure none else throw e

/-- A new `OutgoingTransfer`. -/
def newOutgoing (xfer : OutgoingTransfer) : Segment ℕ := do
  let object ← allocate
  modify fun s ↦ { s with outgoing := Function.update s.outgoing object xfer }
  pure object

/-- The first segment of the `try` block of `send_file`. -/
def requestFile (send : FileSend) : Segment FileFlow := do
  sendEncrypted send.ps (.transferRequest send.metadata)
  pure (.await send .request)

/-- `send_file` up to its first await. -/
def sendFile (remoteAddr : Text) (item : BatchItem) (caller : Option BatchSend) (now : ℤ) :
    Segment FileFlow := do
  let s ← get
  let ps ← ofResult (require (.runtime (.noActiveSession remoteAddr)) (s.activeSessions.get remoteAddr))
  raiseIf ((s.sessions ps).state ≠ .established)
    (.runtime (.notEstablished remoteAddr (s.sessions ps).state))
  let xfer ← newOutgoing (OutgoingTransfer.new item.sourcePath item.transferId
    (caller.elim [] BatchSend.batchId) item.relativePath)
  let metadata ← buildMetadata xfer item.mimeType now
  match metadata with
  | none => pure (.returned false)
  | some metadata => do
    modify fun s ↦ { s with
      activeOutgoingTransfers := s.activeOutgoingTransfers.set metadata.transferId (ps, xfer) }
    unregistering metadata.transferId (requestFile ⟨ps, xfer, metadata, now, caller⟩)

/-! ## A batch of files -/

/-- The end of `send_batch`. -/
def batchSent (b : BatchSend) : Call := do
  let s ← get
  let batch := s.batches b.batch
  reportBatch b.batchId (s.sessions b.ps).deviceId batch .outgoing
    (if b.successCount = batch.totalItems then .completed else .failed) b.createdAt
  pure none

/-- `send_batch` after its loop. -/
def completeBatch (b : BatchSend) : Call := do
  let s ← get
  match s.activeBatches.get b.batchId with
  | none => batchSent b
  | some _ => do
    sendEncrypted b.ps (.batchComplete b.batchId)
    pure (some (.batch b .complete))

/-- The result of an item in the loop of `send_batch`. -/
def countSent (b : BatchSend) (success : Bool) : Segment BatchSend := do
  onBatch b.batch fun batch ↦
    if success then { batch with itemsCompleted := batch.itemsCompleted + 1 }
    else { batch with itemsFailed := batch.itemsFailed + 1 }
  pure (if success then { b with successCount := b.successCount + 1 } else b)

/-- The loop of `send_batch`, from the next item on. -/
def sendItems (now : ℤ) (b : BatchSend) : List BatchItem → Call
  | [] => completeBatch b
  | item :: rest => do
    let s ← get
    match s.activeBatches.get b.batchId with
    | none => completeBatch b
    | some _ => do
      let flow ← sendFile b.remoteAddr item (some { b with remaining := rest }) now
      match flow with
      | .await send await => pure (some (.file send await))
      | .returned success => do
        let b ← countSent b success
        sendItems now b rest

/-- What happens to the result of `send_file`. -/
def fileReturned (now : ℤ) (caller : Option BatchSend) : FileFlow → Call
  | .await send await => pure (some (.file send await))
  | .returned success =>
    match caller with
    | none => pure none
    | some b => do
      let b ← countSent b success
      sendItems now b b.remaining

/-- `send_file` after an await, with the rest of the `send_batch` that awaits it. -/
def resumeSend (send : FileSend) (failed : Bool) (now : ℤ) (await : FileAwait) : Call := do
  let flow ← unregistering send.metadata.transferId (resumeFile send failed await)
  fileReturned now send.caller flow

/-- `send_file` as a call of the user. -/
def startFile (remoteAddr : Text) (item : BatchItem) (now : ℤ) : Call := do
  let flow ← sendFile remoteAddr item none now
  fileReturned now none flow

/-- `send_batch` up to its first await, for the files that it has found. -/
def sendBatch (remoteAddr : Text) (files : List BatchItem) (totalBytes : ℤ) (batchName batchId : Text)
    (now : ℤ) : Call := do
  let s ← get
  match s.activeSessions.get remoteAddr with
  | none => pure none
  | some ps =>
    if (s.sessions ps).state ≠ .established ∨ files = [] then pure none
    else do
      let batch ← registerBatch batchId {
        batchName := batchName
        totalItems := files.length
        totalBytes := totalBytes
        itemsCompleted := 0
        itemsFailed := 0
        bytesTransferred := 0
        state := .requested
        direction := .outgoing
        peer := ps }
      sendEncrypted ps (.batchRequest batchId batchName files.length totalBytes now)
      pure (some (.batch ⟨ps, remoteAddr, batchId, batch, now, files, 0⟩ .request))

/-- `send_batch` after the answer of the receiver. -/
def batchAnswered (b : BatchSend) (now : ℤ) (response : Response) : Call :=
  if response = .accept then sendItems now b b.remaining
  else do
    popBatch b.batchId
    pure none

/-- `send_batch` after an await of its own.  A wait that failed has timed out. -/
def resumeBatch (b : BatchSend) (failed : Bool) (now : ℤ) : BatchAwait → Call
  | .request => do
    drained failed
    let waiter ← waitForTransferResponse b.ps b.batchId
    pure (some (.batch b (.response waiter)))
  | .response waiter => do
    drained failed
    let response ← transferResponse b.ps b.batchId waiter
    batchAnswered b now response
  | .complete => do
    drained failed
    popBatch b.batchId
    batchSent b

end Daemon

end Ferry
