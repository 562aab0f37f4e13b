import Ferry.Daemon.State

/-!
# The session loop

What one session loop does with a frame of its peer, up to the next await, and how it ends.
-/

namespace Ferry

open Exec Text

namespace Daemon

/-- How the loop goes on after a segment. -/
inductive LoopFlow
  | next
  | stop
  | await (await : LoopAwait)

/-- An answer whose exceptions escape the handler. -/
def reply (ps : ℕ) (frame : Frame) : Segment LoopFlow := do
  sendEncrypted ps frame
  pure (.await .reply)

/-- An answer whose exceptions are swallowed. -/
def replyQuietly (ps : ℕ) (frame : Frame) : Segment LoopFlow :=
  sendQuietly ps frame (.await .quietReply) (pure .next)

/-! ## Chunks -/

/-- The progress of the batch that a chunk belongs to. -/
def countBatchBytes (batchId : Text) (length : ℕ) : Segment Unit := do
  let s ← get
  match if batchId = [] then none else s.activeBatches.get batchId with
  | none => pure ()
  | some batch => onBatch batch fun batch ↦ { batch with
      bytesTransferred := batch.bytesTransferred + length }

/-- `_on_chunk_received` after the TRANSFER_ERROR. -/
def chunkErrorSent (transferId : Text) (metadata : TransferMetadata) (owner : ℕ) : Segment LoopFlow := do
  reportIncoming transferId owner metadata .failed metadata.createdAt []
  pure .next

/-- The branch `except TransferError` of `_on_chunk_received`. -/
def chunkUnwritten (transferId : Text) (metadata : TransferMetadata) (e : PyError) :
    Segment LoopFlow := do
  let s ← get
  onLedger fun ledger ↦ ledger.drop transferId
  match s.ledger.incomingPeers.get transferId with
  | none => do
    notifyTransferComplete transferId false metadata.fileName .incoming
    pure .next
  | some owner =>
    sendQuietly owner (.ioFailure transferId e) (.await (.chunkError transferId metadata owner))
      (chunkErrorSent transferId metadata owner)

/-- What `_on_chunk_received` does after an exception of `receive_chunk`. -/
def chunkFailed (transferId : Text) (object : ℕ) (metadata : TransferMetadata) (e : PyError) :
    Segment LoopFlow :=
  if e.isTransferError then chunkUnwritten transferId metadata e
  else if e.isValueOrRuntimeError then do
    cancelObject object
    onLedger fun ledger ↦ (ledger.popIncoming transferId).popLastChunk transferId
    pure .next
  else throw e

/-- `_on_chunk_received` for the chunk of a registered transfer. -/
def receiveInto (now : ℤ) (chunk : ChunkFrame) (object : ℕ) : Segment LoopFlow := do
  let s ← get
  let metadata := (s.objects object).metadata
  onLedger fun ledger ↦ { ledger with
    lastChunkTime := ledger.lastChunkTime.set chunk.transferId now }
  tryCatch (do
    onObject object (IncomingTransfer.receiveChunk chunk)
    countBatchBytes metadata.batchId chunk.data.length
    pure .next) (chunkFailed chunk.transferId object metadata)

/-- `_on_chunk_received`. -/
def onChunkReceived (now : ℤ) (plaintext : Bytes) : Segment LoopFlow := do
  let s ← get
  match decodeChunkFrame plaintext with
  | .error e => do
    raiseIf (¬e.isValueError) e
    pure .next
  | .ok chunk =>
    match s.ledger.incomingTransfers.get chunk.transferId with
    | none => pure .next
    | some object => receiveInto now chunk object

/-! ## Requests -/

/-- The batch that the user has accepted under an id. -/
def acceptedBatch (s : Daemon) (batchId : Text) : Bool :=
  match s.activeBatches.get batchId with
  | none => false
  | some batch => (s.batches batch).state = .accepted

/-- Register the object that the transfer is received into. -/
def registerTransfer (ps : ℕ) (metadata : TransferMetadata) : Segment ℕ := do
  let s ← get
  let object ← newObject (IncomingTransfer.new metadata s.downloadDir)
  onLedger fun ledger ↦ ledger.register metadata.transferId object ps
  pure object

/-- The branch of `_on_transfer_request` for an item of an accepted batch. -/
def registerItem (ps : ℕ) (metadata : TransferMetadata) : Segment LoopFlow := do
  let object ← registerTransfer ps metadata
  onObject object IncomingTransfer.begin
  reply ps (.transferAccept metadata.transferId)

/-- The name that the desktop notification is built from: anything but a string raises. -/
def isText : JsonValue → Bool
  | .str _ => true
  | _ => false

/-- The end of `_on_transfer_request`: notify the user and start the acceptance timeout. -/
def registerPending (ps : ℕ) (metadata : TransferMetadata) : Segment LoopFlow := do
  let object ← registerTransfer ps metadata
  let s ← get
  let session := s.sessions ps
  raiseIf (¬isText (session.remote.deviceName.or (.str session.remoteAddr))) .type
  let timer ← allocate
  onLedger fun ledger ↦ { ledger with
    timers := ledger.timers.set timer ⟨ps, metadata.transferId, metadata, object⟩
    acceptTimeoutTasks := ledger.acceptTimeoutTasks.set metadata.transferId timer }
  pure .next

/-- `_on_transfer_request`. -/
def onTransferRequest (ps : ℕ) (payload : Payload) (now : ℤ) : Segment LoopFlow := do
  let s ← get
  match TransferMetadata.fromDict now payload with
  | .error e =>
    if e.isValueOrKeyError then
      reply ps (.invalidRequest (payload.getD "transfer_id" (.str [])) e)
    else throw e
  | .ok metadata =>
    if metadata.batchId ≠ [] then
      if s.acceptedBatch metadata.batchId then registerItem ps metadata
      else reply ps (.transferReject metadata.transferId .invalidRequest)
    else if s.ledger.incomingTransfers.keys ≠ [] then
      reply ps (.transferReject metadata.transferId .busy)
    else registerPending ps metadata

/-! ## Completion -/

/-- `_on_transfer_complete` up to the `drain` of the TRANSFER_RESULT. -/
def finaliseTransfer (ps : ℕ) (transferId : Text) (object : ℕ) : Segment LoopFlow := do
  onLedger fun ledger ↦ (ledger.cancelTimeout transferId).popLastChunk transferId
  let success ← onObject object IncomingTransfer.finalise
  modify fun s ↦ if success then { s with delivered := object :: s.delivered } else s
  let s ← get
  let sha256 := if success then (s.objects object).metadata.sha256 else []
  sendEncrypted ps (.transferResult transferId success sha256)
  pure (.await (.transferResult transferId object success sha256))

/-- `_on_transfer_complete`. -/
def onTransferComplete (ps : ℕ) (transferId : JsonValue) : Segment LoopFlow := do
  let key ← ofResult transferId.key
  let s ← get
  match key with
  | none => do
    ofResult transferId.sliceOr
    pure .next
  | some key =>
    match s.ledger.incomingTransfers.get key with
    | none => pure .next
    | some object => finaliseTransfer ps key object

/-- The history entry and the notification of a batch. -/
def reportBatch (batchId : Text) (deviceId : JsonValue) (batch : Batch) (direction : Direction)
    (status : TransferStatus) (startedAt : ℤ) : Segment Unit := do
  recordTransferOnce batchId {
    deviceId := deviceId
    fileName := batch.batchName
    fileSize := batch.totalBytes
    direction := direction
    status := status
    startedAt := startedAt
    sha256 := [] }
  notifyTransferComplete batchId (status = .completed) batch.batchName direction

/-- The item of a batch that has arrived, or has failed. -/
def countBatchItem (ps : ℕ) (metadata : TransferMetadata) (success : Bool) : Segment Unit := do
  let s ← get
  match s.activeBatches.get metadata.batchId with
  | none => pure ()
  | some object => do
    onBatch object fun batch ↦
      if success then { batch with itemsCompleted := batch.itemsCompleted + 1 }
      else { batch with itemsFailed := batch.itemsFailed + 1 }
    let s ← get
    let batch := s.batches object
    if batch.itemsCompleted + batch.itemsFailed = batch.totalItems then
      popBatch metadata.batchId
      reportBatch metadata.batchId (s.sessions ps).deviceId batch .incoming
        (if batch.itemsFailed = 0 then .completed else .failed) metadata.createdAt
    else pure ()

/-- `_on_transfer_complete` after the TRANSFER_RESULT is sent. -/
def resultSent (ps : ℕ) (transferId : Text) (object : ℕ) (success : Bool) (sha256 : Text) :
    Segment LoopFlow := do
  onLedger fun ledger ↦ ledger.forget transferId
  let s ← get
  let metadata := (s.objects object).metadata
  if metadata.batchId = [] then
    reportIncoming transferId ps metadata (if success then .completed else .failed)
      metadata.createdAt sha256
  else countBatchItem ps metadata success
  pure .next

/-! ## Cancels and errors -/

/-- `_on_transfer_cancel` for a transfer that one of the dictionaries holds. -/
def cancelActive (ps : ℕ) (transferId : Text) : Segment Unit := do
  let s ← get
  onLedger fun ledger ↦ ledger.drop transferId
  match s.ledger.incomingTransfers.get transferId with
  | none => pure ()
  | some object => do
    cancelObject object
    let metadata := (s.objects object).metadata
    reportIncoming transferId ps metadata .cancelled metadata.createdAt []
  match s.activeOutgoingTransfers.get transferId with
  | none => pure ()
  | some (_, xfer) => onOutgoing xfer OutgoingTransfer.cancel

/-- `_on_transfer_cancel`. -/
def onTransferCancel (ps : ℕ) (transferId : JsonValue) : Segment LoopFlow := do
  ofResult transferId.sliceOr
  let key ← ofResult transferId.key
  let s ← get
  match key with
  | none => pure .next
  | some key => do
    if s.ledger.incomingTransfers.get key = none ∧ s.activeOutgoingTransfers.get key = none then
      pure ()
    else cancelActive ps key
    signalCancel ps key
    pure .next

/-- `_cancel_incoming_transfer`. -/
def cancelIncomingTransfer (transferId : JsonValue) : Segment LoopFlow := do
  let key ← ofResult transferId.key
  let s ← get
  match key with
  | none => pure .next
  | some key => do
    onLedger fun ledger ↦ ledger.drop key
    match s.ledger.incomingTransfers.get key with
    | none => pure .next
    | some object => do
      cancelObject object
      notifyTransferComplete key false (s.objects object).metadata.fileName .incoming
      pure .next

/-! ## Answers -/

/-- A TRANSFER_ACCEPT and its like. -/
def onResponse (ps : ℕ) (transferId : JsonValue) (value : Response) : Segment LoopFlow := do
  let key ← ofResult transferId.key
  match key with
  | none => pure .next
  | some key => do
    signalResponse ps key value
    pure .next

/-- The receiver confirms the file of the outgoing transfer that is registered for it. -/
def confirm (s : Daemon) (ps : ℕ) (transferId : Text) : List ℕ :=
  match s.activeOutgoingTransfers.get transferId with
  | none => s.delivered
  | some (peer, xfer) => if peer = ps then xfer :: s.delivered else s.delivered

/-- A TRANSFER_RESULT. -/
def onResult (ps : ℕ) (transferId : JsonValue) (success : Bool) : Segment LoopFlow := do
  let key ← ofResult transferId.key
  match key with
  | none => pure .next
  | some key => do
    signalResult ps key success
    modify fun s ↦ if success then { s with delivered := s.confirm ps key } else s
    pure .next

/-! ## Resuming -/

/-- `value == n`, for an integer `n`.  A float that is equal to one below 10^16 is written so. -/
def equalsInt (value : JsonValue) (n : ℤ) : Bool :=
  match value with
  | .int m => m = n
  | .bool b => (if b then 1 else 0) = n
  | .float _ text => text = lit (toString n ++ ".0") ∨ (n = 0 ∧ text = lit "-0.0")
  | _ => false

/-- `value.lower()`, for the comparison with hexadecimal digits. -/
def lower : JsonValue → Except PyError Text
  | .str t => .ok (asciiLower t)
  | _ => .error .attribute

/-- The checks of `_on_transfer_resume_request` that answer with a rejection. -/
def resumeRefusal (session : PeerSession) (payload : Payload) (info : InterruptedTransferInfo) :
    Except PyError (Option RejectReason) :=
  if session.remote.staticPubB64 ≠ info.senderIdentity then .ok (some .wrongPeer)
  else do
    let partialSha256 ← lower (payload.getD "partial_sha256" (.str []))
    if partialSha256 ≠ asciiLower info.partialSha256 then return some .partialCorrupt
    else if ¬equalsInt (payload.getD "resume_chunk_index" (.int 0)) info.resumeChunkIndex then
      return some .partialCorrupt
    else return none

/-- The object that is built from the metadata of an interrupted record. -/
def restored (metadata : TransferMetadata) (dir : DownloadDir) : IncomingTransfer :=
  { IncomingTransfer.new metadata dir with
    tempPath := some (metadata.partPath dir)
    state := .interrupted }

/-- The `try` block of `_on_transfer_resume_request`, up to the `drain`. -/
def resumeIncoming (ps : ℕ) (transferId : Text) (info : InterruptedTransferInfo) (now : ℤ) :
    Segment LoopFlow := do
  let s ← get
  let metadata ← ofResult (TransferMetadata.fromDict now info.originalMetadata)
  let object ← newObject (restored metadata s.downloadDir)
  onObject object (IncomingTransfer.resume info.resumeChunkIndex)
  onLedger fun ledger ↦ ledger.register transferId object ps
  sendEncrypted ps (.resumeAccept transferId info.resumeChunkIndex)
  pure (.await (.resumeAccept transferId))

/-- The branch `except Exception` of `_on_transfer_resume_request`. -/
def resumeFailed (ps : ℕ) (transferId : Text) : Segment LoopFlow :=
  replyQuietly ps (.resumeReject (.str transferId) .sourceModified)

/-- `_on_transfer_resume_request` for a transfer with an INTERRUPTED record. -/
def resumeRecorded (ps : ℕ) (transferId : Text) (payload : Payload) (info : InterruptedTransferInfo)
    (now : ℤ) : Segment LoopFlow := do
  let s ← get
  let refusal ← ofResult (resumeRefusal (s.sessions ps) payload info)
  match refusal with
  | some reason => replyQuietly ps (.resumeReject (.str transferId) reason)
  | none => tryCatch (resumeIncoming ps transferId info now) fun _ ↦ resumeFailed ps transferId

/-- `get_interrupted_transfer` for whatever the peer sent as the id. -/
def interruptedTransfer (transferId : JsonValue) :
    Segment (Option (Text × InterruptedTransferInfo)) := do
  let parameter ← ofResult transferId.parameter
  match parameter with
  | none => do
    onDb Database.access
    pure none
  | some key => do
    let info ← onDb (Database.getInterruptedTransfer key)
    pure (info.map fun info ↦ (key, info))

/-- `_on_transfer_resume_request`. -/
def onTransferResumeRequest (ps : ℕ) (payload : Payload) (now : ℤ) : Segment LoopFlow := do
  let transferId := payload.getD "transfer_id" .null
  if transferId.truthy then
    let found ← interruptedTransfer transferId
    match found with
    | none => replyQuietly ps (.resumeReject transferId .transferNotFound)
    | some (key, info) => resumeRecorded ps key payload info now
  else pure .next

/-! ## Batches -/

/-- `_on_batch_request`. -/
def onBatchRequest (ps : ℕ) (payload : Payload) : Segment LoopFlow := do
  let s ← get
  match BatchRequestPayload.fromDict payload with
  | .error _ => pure .next
  | .ok request =>
    if s.activeBatches.keys ≠ [] ∨ s.ledger.incomingTransfers.keys ≠ [] then
      reply ps (.batchReject request.batchId .busy)
    else do
      let _ ← registerBatch request.batchId {
        batchName := request.batchName
        totalItems := request.totalItems
        totalBytes := request.totalBytes
        itemsCompleted := 0
        itemsFailed := 0
        bytesTransferred := 0
        state := .requested
        direction := .incoming
        peer := ps }
      pure .next

/-- `_on_batch_complete`. -/
def onBatchComplete (batchId : JsonValue) : Segment LoopFlow := do
  let key ← ofResult batchId.key
  match key with
  | none => pure .next
  | some key => do
    popBatch key
    pure .next

/-- `_on_batch_cancel`. -/
def onBatchCancel (batchId : JsonValue) : Segment LoopFlow := do
  let key ← ofResult batchId.key
  let s ← get
  match key with
  | none => pure .next
  | some key => do
    popBatch key
    match s.activeBatches.get key with
    | none => pure .next
    | some batch => do
      notifyTransferComplete key false (s.batches batch).batchName .incoming
      pure .next

/-! ## Pairing -/

/-- `ps.session.transition`. -/
def transitionSession (ps : ℕ) (new : SessionState) : Segment Unit := do
  let s ← get
  raiseIf (new ∉ (s.sessions ps).state.validTransitions)
    (.runtime (.invalidSessionTransition (s.sessions ps).state new))
  onSession ps fun session ↦ { session with state := new }

/-- The end of a pairing, which both sides have accepted. -/
def establish (ps : ℕ) (now : ℤ) (uuid : Text) : Segment Unit := do
  transitionSession ps .pairAccepted
  let s ← get
  onDb (persistTrust now uuid (s.sessions ps).remote)
  transitionSession ps .established

/-- What a received ACCEPT does. -/
def acceptRemotely (ps : ℕ) (now : ℤ) (uuid : Text) : Segment LoopFlow := do
  let s ← get
  if (s.sessions ps).state = .pairing then
    transitionSession ps .waitingForLocalDecision
    pure .next
  else if (s.sessions ps).state = .waitingForRemoteDecision then
    establish ps now uuid
    replyQuietly ps .capabilities
  else pure .next

/-- Equality with a string. -/
def isLiteral (value : JsonValue) (literal : String) : Bool :=
  match value with
  | .str t => t = lit literal
  | _ => false

/-- The branch PAIR_DECISION of `_run_session_loop`. -/
def onPairDecision (ps : ℕ) (payload : JsonValue) (now : ℤ) (uuid : Text) : Segment LoopFlow := do
  let payload ← ofResult payload.fields
  let decision := payload.getD "decision" .null
  if isLiteral decision "REJECT" then pure .stop
  else if isLiteral decision "ACCEPT" then acceptRemotely ps now uuid
  else pure .next

/-! ## Dispatch -/

/-- `except (ValueError, KeyError)` around a parser of a notification. -/
def parseNotification {α : Type} (parsed : Except PyError α) : Segment LoopFlow :=
  match parsed with
  | .ok _ => pure .next
  | .error e => do
    raiseIf (¬e.isValueOrKeyError) e
    pure .next

/-- `_handle_transfer_message`. -/
def handleTransferMessage (ps : ℕ) (type : Option MessageType) (payload : JsonValue) (now : ℤ) :
    Segment LoopFlow := do
  let payload ← ofResult payload.fields
  let transferId := payload.getD "transfer_id" (.str [])
  let batchId := payload.getD "batch_id" (.str [])
  match type with
  | some .transferRequest => onTransferRequest ps payload now
  | some .transferAccept => onResponse ps transferId .accept
  | some .transferReject => onResponse ps transferId .reject
  | some .transferComplete => onTransferComplete ps transferId
  | some .transferResult => onResult ps transferId (payload.getD "success" (.bool false)).truthy
  | some .transferCancel => onTransferCancel ps transferId
  | some .transferError => cancelIncomingTransfer transferId
  | some .transferResumeRequest => onTransferResumeRequest ps payload now
  | some .transferResumeAccept => onResponse ps transferId .accept
  | some .transferResumeReject => onResponse ps transferId .reject
  | some .batchRequest => onBatchRequest ps payload
  | some .batchAccept => onResponse ps batchId .accept
  | some .batchReject => onResponse ps batchId .reject
  | some .batchCancel => onBatchCancel batchId
  | some .batchComplete => onBatchComplete batchId
  | _ => pure .next

/-- One round of `_run_session_loop` after the frame is decrypted. -/
def processFrame (ps : ℕ) (plaintext : Plaintext) (now : Clock) (uuid : Text) : Segment LoopFlow :=
  match plaintext with
  | .malformed => throw (.value .badJson)
  | .chunk data => onChunkReceived now.monotonic data
  | .control ⟨some .disconnect, _⟩ => pure .stop
  | .control ⟨some .pairDecision, payload⟩ => onPairDecision ps payload now.wall uuid
  | .control ⟨some .capabilities, payload⟩ => do
    let payload ← ofResult payload.fields
    let _ ← ofResult (payload.getD "capabilities" (.arr [] [])).toList
    pure .next
  | .control ⟨some .notificationPost, payload⟩ =>
    if maxNotificationFrameBytes < payload.dumpsLength then pure .next
    else parseNotification (NotificationPostPayload.fromDict payload)
  | .control ⟨some .notificationRemove, payload⟩ =>
    parseNotification (NotificationRemovePayload.fromDict payload)
  | .control ⟨type, payload⟩ => handleTransferMessage ps type payload now.wall

/-- A handler of the session loop after its await. -/
def resumeHandler (ps : ℕ) (failed : Bool) : LoopAwait → Segment LoopFlow
  | .reply => do
    drained failed
    pure .next
  | .quietReply => pure .next
  | .resumeAccept transferId => if failed then resumeFailed ps transferId else pure .next
  | .chunkError transferId metadata owner => chunkErrorSent transferId metadata owner
  | .transferResult transferId object success sha256 => do
    drained failed
    resultSent ps transferId object success sha256

/-! ## The end of the loop -/

/-- One round of the loop of `_cancel_incoming_transfer_for_peer`. -/
def cancelIncomingForPeer (ps : ℕ) (transferId : Text) (object : ℕ) : Segment Unit := do
  onLedger fun ledger ↦ ledger.drop transferId
  cancelObject object
  let s ← get
  let incoming := s.objects object
  reportIncoming transferId ps incoming.metadata
    (if incoming.state = .interrupted then .interrupted else .failed) incoming.metadata.createdAt []

/-- One round of the loop of `_cancel_outgoing_transfer_for_peer`. -/
def cancelOutgoingForPeer (ps : ℕ) (transferId : Text) (xfer : ℕ) : Segment Unit := do
  onOutgoing xfer OutgoingTransfer.cancel
  signalCancel ps transferId

/-- A loop over a list. -/
def forEach {α : Type} (f : α → Segment Unit) : List α → Segment Unit
  | [] => pure ()
  | a :: rest => do
    f a
    forEach f rest

/-- The incoming transfers of a session, in the order in which they were registered. -/
def incomingOf (s : Daemon) (ps : ℕ) : List (Text × ℕ) :=
  s.ledger.incomingTransfers.items.filter fun item ↦ s.ledger.incomingPeers.get item.1 = some ps

/-- The outgoing transfers of a session. -/
def outgoingOf (s : Daemon) (ps : ℕ) : List (Text × ℕ × ℕ) :=
  s.activeOutgoingTransfers.items.filter fun item ↦ item.2.1 = ps

/-- `_cancel_incoming_transfer_for_peer` and `_cancel_outgoing_transfer_for_peer`. -/
def cancelForPeer (ps : ℕ) : Segment Unit := do
  let s ← get
  forEach (fun item ↦ cancelIncomingForPeer ps item.1 item.2) (s.incomingOf ps)
  forEach (fun item ↦ cancelOutgoingForPeer ps item.1 item.2.2) (s.outgoingOf ps)

/-- The transitions of the session at the end of `_run_session_loop` and of `_run_handshake`. -/
def closeStates (ps : ℕ) : Segment Unit := do
  tryCatch (do
    transitionSession ps .closing
    transitionSession ps .disconnected) fun _ ↦ do
      let s ← get
      if (s.sessions ps).state ∉ [.established, .closing, .failed, .disconnected] then
        tryCatch (transitionSession ps .failed) fun _ ↦ pure ()
      else pure ()
  let s ← get
  if (s.sessions ps).state ∉ [.disconnected, .failed] then
    tryCatch (do
      transitionSession ps .closing
      transitionSession ps .disconnected) fun _ ↦ pure ()
  else pure ()

/-- The `finally` of `_run_session_loop` and that of `_run_handshake`. -/
def endLoop (ps : ℕ) : Segment Unit := do
  cancelForPeer ps
  closeStates ps
  modify fun s ↦ { s with activeSessions := s.activeSessions.pop (s.sessions ps).remoteAddr }
  onSession ps fun session ↦ { session with loop := .ended, closed := true }

end Daemon

end Ferry
