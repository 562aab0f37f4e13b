import Ferry.Daemon.SessionLoop

/-!
# The calls of the user and the timers

The methods that the user interface calls, up to their awaits and after them, the acceptance timeout
and the monitor of stalled transfers.
-/

namespace Ferry

open Exec Text

namespace Daemon

/-- A segment of a coroutine of its own: where it awaits, or `none` when it has returned. -/
abbrev Call : Type := Segment (Option Await)

/-! ## Pairing -/

/-- `accept_pairing`.  Nothing depends on its last await. -/
def acceptPairing (remoteAddr : Text) (now : ℤ) (uuid : Text) : Call := do
  let s ← get
  match s.activeSessions.get remoteAddr with
  | none => pure none
  | some ps => do
    if (s.sessions ps).state = .pairing then transitionSession ps .waitingForRemoteDecision
    else if (s.sessions ps).state = .waitingForLocalDecision then establish ps now uuid
    else pure ()
    sendEncrypted ps (.pairDecision true)
    pure none

/-- `_disconnect_session`. -/
def disconnectSession (ps : ℕ) : Call := do
  let s ← get
  if (s.sessions ps).state ∉ [.disconnected, .failed] then
    tryCatch (transitionSession ps .failed) fun _ ↦ pure ()
  else pure ()
  onSession ps fun session ↦ { session with closed := true }
  pure none

/-- `reject_pairing` up to its await. -/
def rejectPairing (remoteAddr : Text) : Call := do
  let s ← get
  match s.activeSessions.get remoteAddr with
  | none => pure none
  | some ps =>
    sendQuietly ps (.pairDecision false) (some (.rejectPairing ps)) (disconnectSession ps)

/-! ## Decisions -/

/-- `accept_batch`. -/
def acceptBatch (remoteAddr batchId : Text) : Call := do
  let s ← get
  match s.activeBatches.get batchId with
  | none => pure none
  | some batch =>
    match s.activeSessions.get remoteAddr with
    | none => pure none
    | some ps => do
      onBatch batch fun batch ↦ { batch with state := .accepted }
      sendEncrypted ps (.batchAccept batchId)
      pure none

/-- `reject_batch`. -/
def rejectBatch (remoteAddr batchId : Text) : Call := do
  let s ← get
  popBatch batchId
  match s.activeBatches.get batchId with
  | none => pure none
  | some _ =>
    match s.activeSessions.get remoteAddr with
    | none => pure none
    | some ps => do
      sendEncrypted ps (.batchReject batchId .userRejected)
      pure none

/-- `accept_transfer`. -/
def acceptTransfer (remoteAddr transferId : Text) : Call := do
  let s ← get
  match s.ledger.incomingTransfers.get transferId with
  | none => acceptBatch remoteAddr transferId
  | some object =>
    match s.activeSessions.get remoteAddr with
    | none => pure none
    | some ps => do
      onLedger fun ledger ↦ ledger.accept transferId object
      onObject object IncomingTransfer.begin
      sendEncrypted ps (.transferAccept transferId)
      pure none

/-- `reject_transfer`. -/
def rejectTransfer (remoteAddr transferId : Text) : Call := do
  let s ← get
  match s.ledger.incomingTransfers.get transferId with
  | none => rejectBatch remoteAddr transferId
  | some object => do
    onLedger fun ledger ↦ ledger.popIncoming transferId
    match s.activeSessions.get remoteAddr with
    | none => pure none
    | some ps => do
      onLedger fun ledger ↦ ledger.cancelTimeout transferId
      cancelObject object
      sendEncrypted ps (.transferReject transferId .userRejected)
      pure none

/-! ## Cancelling -/

/-- The string that stands for a device that is not known. -/
def unknownDevice : JsonValue := .str (lit "unknown")

/-- The loop of `cancel_transfer` over the sessions, and what follows it.  A dictionary whose size
changed since the loop began makes the next round raise. -/
def broadcastCancel (now : ℤ) (batchId : Text) (batch size : ℕ) : List ℕ → Call
  | [] => do
    let s ← get
    raiseIf (s.activeSessions.keys.length ≠ size) (.runtime .dictChangedSize)
    reportBatch batchId unknownDevice (s.batches batch) .outgoing .cancelled now
    pure none
  | ps :: rest => do
    let s ← get
    raiseIf (s.activeSessions.keys.length ≠ size) (.runtime .dictChangedSize)
    sendQuietly ps (.batchCancel batchId) (some (.cancelBatch batchId batch size rest))
      (broadcastCancel now batchId batch size rest)

/-- `cancel_transfer` for an incoming transfer, after the TRANSFER_CANCEL. -/
def incomingCancelled (transferId : Text) (object : ℕ) (deviceId : JsonValue) (now : ℤ) : Call := do
  let s ← get
  let metadata := (s.objects object).metadata
  recordTransferOnce transferId (incomingRecord deviceId metadata .cancelled now [])
  notifyTransferComplete transferId false metadata.fileName .incoming
  pure none

/-- `cancel_transfer` for an incoming transfer. -/
def cancelIncoming (transferId reason : Text) (object : ℕ) (now : ℤ) : Call := do
  let s ← get
  onLedger fun ledger ↦ ledger.drop transferId
  cancelObject object
  match s.ledger.incomingPeers.get transferId with
  | none => incomingCancelled transferId object unknownDevice now
  | some ps =>
    sendQuietly ps (.transferCancel transferId reason) (some (.cancelIncoming transferId object ps))
      (incomingCancelled transferId object (s.sessions ps).deviceId now)

/-- `cancel_transfer`. -/
def cancelTransfer (transferId reason : Text) (now : ℤ) : Call := do
  let s ← get
  match s.activeBatches.get transferId with
  | some batch => do
    popBatch transferId
    broadcastCancel now transferId batch s.activeSessions.keys.length
      (s.activeSessions.items.map Prod.snd)
  | none =>
    match s.activeOutgoingTransfers.get transferId with
    | some (ps, xfer) => do
      onOutgoing xfer OutgoingTransfer.cancel
      signalCancel ps transferId
      pure none
    | none =>
      match s.ledger.incomingTransfers.get transferId with
      | some object => cancelIncoming transferId reason object now
      | none => pure none

/-- `discard_interrupted_transfer`. -/
def discardInterruptedTransfer (transferId : Text) : Call := do
  let s ← get
  let partFile := (Path.join s.downloadDir.staging (transferId ++ lit ".part")).resolve
  if s.disk.Exists partFile then
    tryCatch (zoom Daemon.disk (fun disk s ↦ { s with disk }) (mapError .ofIo (Disk.unlink partFile)))
      fun e ↦ if e.IsOsError then pure () else throw e
  else pure ()
  onLedger fun ledger ↦ ledger.forget transferId
  tryCatch (onDb (Database.deleteInterruptedTransfer transferId)) fun _ ↦ pure ()
  pure none

/-! ## Resuming -/

/-- `request_resume` gives up. -/
def abandonResume (transferId : Text) : Call := do
  onLedger fun ledger ↦ ledger.forget transferId
  pure none

/-- `request_resume` from the new object to the `drain` of the request. -/
def sendResumeRequest (ps : ℕ) (transferId : Text) (info : InterruptedTransferInfo)
    (metadata : TransferMetadata) : Call := do
  let s ← get
  let object ← newObject (restored metadata s.downloadDir)
  let prepared ← tryCatch (do
    let payload ← onObject object
      (IncomingTransfer.prepareResumeRequest (some info.bytesReceived) (some info.resumeChunkIndex))
    pure (some payload)) fun _ ↦ pure none
  match prepared with
  | none => pure none
  | some payload => do
    onLedger fun ledger ↦ ledger.register transferId object ps
    sendEncrypted ps (.resumeRequest payload)
    pure (some (.resumeRequest transferId object ps payload.resumeChunkIndex))

/-- `request_resume` up to its first await. -/
def requestResume (remoteAddr transferId : Text) (now : ℤ) : Call := do
  let s ← get
  match s.activeSessions.get remoteAddr with
  | none => pure none
  | some ps => do
    let info ← onDb (Database.getInterruptedTransfer transferId)
    match info with
    | none => pure none
    | some info =>
      match TransferMetadata.fromDict now info.originalMetadata with
      | .error _ => pure none
      | .ok metadata => sendResumeRequest ps transferId info metadata

/-- `request_resume` after the answer. -/
def resumeAnswered (transferId : Text) (object : ℕ) (resumeChunkIndex : ℤ) (response : Response) :
    Call :=
  if response = .accept then
    tryCatch (do
      onObject object (IncomingTransfer.resume resumeChunkIndex)
      pure none) fun _ ↦ abandonResume transferId
  else abandonResume transferId

/-! ## The acceptance timeout -/

/-- `_acceptance_timeout` after the TRANSFER_REJECT. -/
def rejectionSent (timer : AcceptanceTimer) : Call := do
  reportIncoming timer.transferId timer.ps timer.metadata .rejected timer.metadata.createdAt []
  pure none

/-- `_acceptance_timeout` after its sleep. -/
def acceptanceTimeout (timer : AcceptanceTimer) : Call := do
  let s ← get
  match s.ledger.incomingTransfers.get timer.transferId with
  | none => pure none
  | some object => do
    onLedger fun ledger ↦ (ledger.forget timer.transferId).popTimeout timer.transferId
    cancelObject object
    sendQuietly timer.ps (.transferReject timer.transferId .timeoutExpired)
      (some (.acceptanceTimeout timer)) (rejectionSent timer)

/-! ## Stalled transfers -/

/-- The stall timeout in seconds. -/
def stallTimeout : ℤ := 30

/-- The session of a stalled transfer is closed. -/
def stalledSession (s : Daemon) (now : ℤ) (item : Text × ℤ) : Option ℕ :=
  if stallTimeout < now - item.2 then s.ledger.incomingPeers.get item.1 else none

/-- One round of `_monitor_stall_timeouts`. -/
def monitorStallTimeouts (now : ℤ) : Segment Unit := do
  let s ← get
  forEach (fun ps ↦ onSession ps fun session ↦ { session with closed := true })
    (s.ledger.lastChunkTime.items.filterMap (s.stalledSession now))

end Daemon

end Ferry
