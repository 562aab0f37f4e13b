import Ferry.Android.Outgoing

/-!
# The Android client

`FerryControlClient` as a state machine: sessions, the frames of the peer, the user's calls, and the
coroutines of incoming and outgoing transfers, in any order.  There is one slot for the deferred of an
outgoing transfer, one for the active receiver and one pair of flags, whatever transfer a message names.
-/

namespace Ferry

open Exec

/-- The messages of the peer with the identifiers that they name. -/
inductive ClientMessage
  | transferRequest (fields : String → Kotlin.MapValue)
  | transferComplete (transferId : Text)
  | transferCancel (transferId : Text)
  | transferError (transferId : Text)
  | transferAccept (transferId : Text)
  | transferReject (transferId : Text)
  | transferResumeRequest (transferId : Text) (resumeChunkIndex resumeOffsetBytes : ℤ)
      (partialSha256 : Text)
  | transferResumeAccept (transferId : Text) (resumeChunkIndex : ℤ)
  | transferResumeReject (transferId : Text)
  | transferResult (transferId : Text) (success : Bool)
  | batchRequest (batchId : Text) (totalItems : ℤ)
  | batchAccept (batchId : Text)
  | batchReject (batchId : Text)
  | batchCancel (batchId : Text)
  | batchComplete (batchId : Text)
  | other

/-- What the part that receives sees of a message. -/
def ClientMessage.received : ClientMessage → PeerMessage
  | transferRequest fields => .transferRequest fields
  | transferComplete transferId => .transferComplete transferId
  | transferCancel transferId => .transferCancel transferId
  | transferError _ => .transferError
  | transferAccept transferId => .transferAccept transferId
  | transferReject transferId => .transferReject transferId
  | transferResumeAccept transferId resumeChunkIndex => .transferResumeAccept transferId resumeChunkIndex
  | transferResumeReject _ => .transferResumeReject
  | batchRequest batchId totalItems => .batchRequest batchId totalItems
  | batchCancel batchId => .batchCancel batchId
  | batchComplete batchId => .batchComplete batchId
  | transferResumeRequest .. | transferResult .. | batchAccept _ | batchReject _ | other => .other

/-- A decrypted frame, whose messages are those of `handleTransferMessage` and PAIR_DECISION. -/
inductive ClientFrame
  | chunk (plaintext : { plaintext : Bytes // isChunkFrame plaintext = true })
  | message (message : ClientMessage)
  | pairDecision (accept : Bool)

/-- What may happen to the client. -/
inductive ControlEvent
  | startSession (remoteStaticB64 : Text) (isTrusted : Bool)
  | frame (now : ℤ) (frame : ClientFrame)
  | loopEnd (now : ℤ)
  | acceptPairing
  | rejectPairing
  | setAutoAcceptTransfers (value : Bool)
  | acceptIncomingTransfer
  | rejectIncomingTransfer
  | cancelIncomingTransfer (transferId : Option Text)
  | cancelOutgoingTransfer
  | requestResume (now : ℤ) (record : InterruptedRecord)
  | discardInterrupted (transferId : Text)
  | sendFile (now : ℤ) (uri transferId : Text) (source : FerryControlClient.SourceFile)
  | sendBatch (now : ℤ) (uris : List Text) (batchId batchName : Text) (totalBytes : ℤ)
  | decideIncoming (index : ℕ) (timedOut : Bool)
  | awaitResume (index : ℕ) (timedOut : Bool)
  | goOn (now : ℤ) (index : ℕ) (input : FerryControlClient.SendInput)
  | goOnResuming (now : ℤ) (index : ℕ) (input : FerryControlClient.SendInput)
  | disk (disk : Disk)

namespace FerryControlClient

/-! ## Sessions -/

/-- `try { transition(new) } catch`. -/
def tryTransition (new state : SessionState) : SessionState :=
  if new ∈ state.kotlinTransitions then new else state

/-- The start of a session with the peer whose key was authenticated. -/
def startSession (remoteStaticB64 : Text) (isTrusted : Bool) : Action Unit := do
  let client ← get
  onReceiving (TransferClient.startLoop
    (if isTrusted then remoteStaticB64 else client.receiving.connectedPeerStaticB64))
  update fun client ↦ { client with
    sessions := client.sessions + 1
    sessionState := if isTrusted then .established else .pairing
    remoteStaticB64 }

/-- The record of an incoming transfer that the end of a session interrupts. -/
def incomingRecord (client : FerryControlClient) (now : ℤ) (metadata : Kotlin.TransferMetadata)
    (interrupted : ℤ) : InterruptedRecord where
  transferId := metadata.transferId
  fileName := metadata.fileName
  fileSize := metadata.fileSize
  mimeType := metadata.mimeType
  sha256 := metadata.sha256
  chunkSize := metadata.chunkSize
  chunkCount := metadata.chunkCount
  senderIdentity := client.receiving.connectedPeerStaticB64
  receiverIdentity := client.publicKeyB64
  originalMetadata := metadata.toMap
  bytesReceived := interrupted
  resumeChunkIndex := Kotlin.TransferMetadata.toInt32 (interrupted / metadata.chunkSize)
  partialSha256 := []
  interruptedAt := now
  expireAt := InterruptedTransferStore.makeExpireAt now
  direction := .incoming
  contentUriString := none

/-- The entry of a transfer that the client was receiving. -/
def incomingEntry (now : ℤ) (transferId : Text) (metadata : Kotlin.TransferMetadata) (success : Bool) :
    TransferHistoryEntry :=
  ⟨transferId, metadata.fileName, metadata.fileSize, .incoming, success, now⟩

/-- What the end of a session notes of the active receiver. -/
def noteInterrupted (now : ℤ) : Action Unit := do
  let client ← get
  match client.receiving.activeReceiver, client.receiving.activeReceiverMeta with
  | some receiver, some metadata =>
    match (FerryTransferReceiver.interrupt ⟨client.receiving.disk, receiver⟩).1 with
    | .ok interrupted =>
      if 0 ≤ interrupted ∧ Text.isBlank client.receiving.connectedPeerStaticB64 = false then
        update fun client ↦ { client with
          interruptedStore := client.interruptedStore.set metadata.transferId
            (client.incomingRecord now metadata interrupted) }
      else record (incomingEntry now metadata.transferId metadata false)
    | .error _ => pure ()
  | _, _ => pure ()

/-- The `finally` of `runEncryptedSessionLoop`. -/
def endLoop (now : ℤ) : Action Unit := do
  noteInterrupted now
  onReceiving TransferClient.endLoop
  completeAccept false
  update fun client ↦ { client with
    sessionState := tryTransition .disconnected (tryTransition .closing client.sessionState) }

/-! ## Messages -/

/-- The result that was sent last. -/
def resultSent (client : TransferClient) : Bool :=
  match client.sent.getLast? with
  | some (.transferResult _ success) => success
  | _ => false

/-- `onTransferComplete`, with the entry of the history. -/
def onTransferComplete (now : ℤ) (transferId : Text) : Action Unit := do
  let client ← get
  onReceiving (TransferClient.onTransferComplete transferId)
  match client.receiving.activeReceiver, client.receiving.activeReceiverMeta with
  | some _, some metadata =>
    if client.receiving.Handled transferId then pure ()
    else
      let after ← get
      record (incomingEntry now transferId metadata (resultSent after.receiving))
  | _, _ => pure ()

/-- The branch TRANSFER_CANCEL: the flags of the outgoing transfer are set whatever the id. -/
def onTransferCancel (transferId : Text) : Action Unit := do
  let client ← get
  onReceiving (TransferClient.onTransferCancel transferId)
  if client.receiving.Handled transferId then completeAccept false
  else
    update fun client ↦ { client with outgoingCancelledByPeer := true, outgoingCancelled := true }
    completeAccept false

/-- The branches TRANSFER_ACCEPT and TRANSFER_REJECT. -/
def onTransferAnswer (transferId : Text) (value : Bool) : Action Unit := do
  let client ← get
  if client.receiving.Handled transferId then pure ()
  else
    onReceiving (TransferClient.markHandled transferId)
    completeAccept value

/-- The branch TRANSFER_RESUME_ACCEPT.  A receiver that resumes has its record deleted. -/
def onResumeAccept (transferId : Text) (resumeChunkIndex : ℤ) : Action Unit := do
  onReceiving (TransferClient.onResumeAccept transferId resumeChunkIndex)
  update fun client ↦ { client with
    interruptedStore :=
      if client.receiving.activeReceiverMeta.map Kotlin.TransferMetadata.transferId = some transferId
      then client.interruptedStore.pop transferId else client.interruptedStore }

/-- The branch TRANSFER_RESUME_REJECT. -/
def onResumeReject (now : ℤ) (transferId : Text) : Action Unit := do
  let client ← get
  onReceiving TransferClient.onResumeReject
  match client.receiving.activeReceiverMeta with
  | some metadata => record (incomingEntry now transferId metadata false)
  | none => pure ()
  update fun client ↦ { client with interruptedStore := client.interruptedStore.pop transferId }

/-- The branch TRANSFER_RESUME_REQUEST, which launches a coroutine. -/
def launchResume (transferId : Text) (resumeChunkIndex resumeOffsetBytes : ℤ) (partialSha256 : Text) :
    Action Unit :=
  update fun client ↦ { client with
    resumeSends := client.resumeSends ++ [⟨client.sessions, transferId, resumeChunkIndex,
      Kotlin.TransferMetadata.toInt32 resumeOffsetBytes, partialSha256, resumeChunkIndex, .launched⟩] }

/-- `handleTransferMessage`. -/
def handleTransferMessage (now : ℤ) : ClientMessage → Action Unit
  | .transferComplete transferId => onTransferComplete now transferId
  | .transferCancel transferId => onTransferCancel transferId
  | .transferError _ => do
    onReceiving TransferClient.cancelReceiver
    completeAccept false
  | .transferAccept transferId => onTransferAnswer transferId true
  | .transferReject transferId => onTransferAnswer transferId false
  | .transferResumeRequest transferId resumeChunkIndex resumeOffsetBytes partialSha256 =>
    launchResume transferId resumeChunkIndex resumeOffsetBytes partialSha256
  | .transferResumeAccept transferId resumeChunkIndex => onResumeAccept transferId resumeChunkIndex
  | .transferResumeReject transferId => onResumeReject now transferId
  | .batchAccept _ => completeBatch true
  | .batchReject _ => completeBatch false
  | .batchCancel batchId => do
    update fun client ↦ { client with outgoingCancelledByPeer := true }
    completeBatch false
    update fun client ↦ { client with pendingBatchAccept := none }
    onReceiving (TransferClient.closeBatch batchId)
  | message => onReceiving (TransferClient.handleTransferMessage now message.received)

/-- What PAIR_DECISION does to the state of the session; a rejection ends the loop. -/
def onPairDecision (now : ℤ) (accept : Bool) : Action Unit := do
  let client ← get
  if accept then
    if client.sessionState = .pairing ∨ client.sessionState = .waitingForRemoteDecision then
      update fun client ↦ { client with sessionState := .established }
  else endLoop now

/-- One round of the loop. -/
def processFrame (now : ℤ) : ClientFrame → Action Unit
  | .chunk plaintext => onReceiving (TransferClient.onChunkReceived plaintext)
  | .message message => handleTransferMessage now message
  | .pairDecision accept => onPairDecision now accept

/-- A round of the loop, which ends when the round raises. -/
def receiveFrame (now : ℤ) (frame : ClientFrame) : Action Unit :=
  tryCatch (processFrame now frame) fun _ ↦ endLoop now

/-! ## The user -/

/-- What `acceptPairing` does to the state of the session. -/
def acceptPairing : Action Unit :=
  update fun client ↦ { client with
    sessionState :=
      match client.sessionState with
      | .pairing => .waitingForRemoteDecision
      | .waitingForLocalDecision => .established
      | state => state }

/-- What `rejectPairing` does to the state of the session. -/
def rejectPairing : Action Unit :=
  update fun client ↦ { client with sessionState := tryTransition .failed client.sessionState }

/-- `cancelOutgoingTransfer`. -/
def cancelOutgoingTransfer : Action Unit := do
  update fun client ↦ { client with outgoingCancelled := true }
  completeAccept false

/-- `requestResume` up to its wait.  A record without its staging file is deleted. -/
def requestResume (now : ℤ) (record : InterruptedRecord) : Action Unit := do
  let client ← get
  if ¬client.Established then pure ()
  else
    tryCatch (onReceiving (TransferClient.requestResume now record.resumed)) fun e ↦
      update fun client ↦ { client with
        interruptedStore :=
          if e = .fileNotFound then client.interruptedStore.pop record.transferId
          else client.interruptedStore }
    let after ← get
    let asked := after.receiving.resumeAnswers.length - client.receiving.resumeAnswers.length
    update fun client ↦ { client with
      resumeIds := client.resumeIds ++ List.replicate asked record.transferId }

/-- `discardInterrupted`. -/
def discardInterrupted (transferId : Text) : Action Unit := do
  let client ← get
  let partFile := JavaFile.child client.receiving.stagingDir (transferId ++ Text.lit ".part")
  let found ← onReceiving (TransferClient.onDisk (JavaFile.fileExists partFile))
  if found then
    let _ ← onReceiving (TransferClient.onDisk (JavaFile.delete partFile))
  update fun client ↦ { client with interruptedStore := client.interruptedStore.pop transferId }

/-! ## Coroutines -/

/-- What a turn of a coroutine leaves of it: the coroutine ends when it returns or raises. -/
def settle {α : Type} (turn : Action (Progress α)) : Action (Progress α) :=
  tryCatch turn fun _ ↦ return .returns false

/-- A new coroutine that has taken its first turn. -/
def addJob (started : Progress SendJob) : Action Unit :=
  update fun client ↦ { client with
    jobs :=
      match started with
      | .goesOn job => client.jobs ++ [job]
      | _ => client.jobs }

/-- `sendFile` on its own. -/
def sendFile (now : ℤ) (uri transferId : Text) (source : SourceFile) : Action Unit := do
  let started ← settle do
    let progress ← startFile now uri transferId source []
    match progress with
    | .goesOn file => return .goesOn ⟨none, some file⟩
    | _ => return .returns false
  addJob started

/-- `sendBatch`. -/
def sendBatch (now : ℤ) (uris : List Text) (batchId batchName : Text) (totalBytes : ℤ) : Action Unit := do
  let started ← settle do
    let progress ← startBatch now uris batchId batchName totalBytes
    match progress with
    | .goesOn batch => return .goesOn ⟨some batch, none⟩
    | _ => return .returns false
  addJob started

/-- The coroutine after a turn of its `sendFile`: on its own it returns with it, and `sendBatch` goes on
with the outcome. -/
def afterFile (job : SendJob) : Progress FileSend → Progress SendJob
  | .waits => .waits
  | .goesOn file => .goesOn { job with file := some file }
  | .returns value =>
    match job.batch with
    | none => .returns value
    | some batch => .goesOn ⟨some { batch with success := value }, none⟩

/-- A turn of a `sendBatch` that is not sending an item. -/
def turnBatch (now : ℤ) (input : SendInput) (batch : BatchSend) : Action (Progress SendJob) := do
  let started ← nextItem now input batch
  match started with
  | some (batch, progress) => return afterFile ⟨some batch, none⟩ progress
  | none => do
    let progress ← goOnBatch input batch
    match progress with
    | .waits => return .waits
    | .goesOn batch => return .goesOn ⟨some batch, none⟩
    | .returns value => return .returns value

/-- A turn of a coroutine that sends. -/
def goOnJob (now : ℤ) (input : SendInput) (job : SendJob) : Action (Progress SendJob) :=
  match job.file, job.batch with
  | some file, _ => do
    let progress ← goOnFile now input file
    return afterFile job progress
  | none, some batch => turnBatch now input batch
  | none, none => return .returns false

/-- The coroutines after a turn of the one at an index. -/
def afterTurn {α : Type} (coroutines : List α) (index : ℕ) : Progress α → List α
  | .waits => coroutines
  | .goesOn coroutine => coroutines.set index coroutine
  | .returns _ => coroutines.eraseIdx index

/-- The coroutine at an index takes a turn. -/
def goOn (now : ℤ) (index : ℕ) (input : SendInput) : Action Unit := do
  let client ← get
  match client.jobs[index]? with
  | none => pure ()
  | some job => do
    let progress ← settle (goOnJob now input job)
    update fun client ↦ { client with jobs := afterTurn client.jobs index progress }

/-- The same for a coroutine of `onResumeRequest`. -/
def goOnResuming (now : ℤ) (index : ℕ) (input : SendInput) : Action Unit := do
  let client ← get
  match client.resumeSends[index]? with
  | none => pure ()
  | some resume => do
    let progress ← settle (goOnResume now input resume)
    update fun client ↦ { client with resumeSends := afterTurn client.resumeSends index progress }

/-! ## Runs -/

/-- What an event does. -/
def act : ControlEvent → Action Unit
  | .startSession remoteStaticB64 isTrusted => startSession remoteStaticB64 isTrusted
  | .frame now frame => receiveFrame now frame
  | .loopEnd now => endLoop now
  | .acceptPairing => acceptPairing
  | .rejectPairing => rejectPairing
  | .setAutoAcceptTransfers value =>
    update fun client ↦ { client with receiving.autoAcceptTransfers := value }
  | .acceptIncomingTransfer => onReceiving TransferClient.acceptIncomingTransfer
  | .rejectIncomingTransfer => onReceiving TransferClient.rejectIncomingTransfer
  | .cancelIncomingTransfer transferId => onReceiving (TransferClient.cancelIncomingTransfer transferId)
  | .cancelOutgoingTransfer => cancelOutgoingTransfer
  | .requestResume now record => requestResume now record
  | .discardInterrupted transferId => discardInterrupted transferId
  | .sendFile now uri transferId source => sendFile now uri transferId source
  | .sendBatch now uris batchId batchName totalBytes => sendBatch now uris batchId batchName totalBytes
  | .decideIncoming index timedOut =>
    update fun client ↦ { client with receiving := client.receiving.runWaiting index timedOut }
  | .awaitResume index timedOut =>
    update fun client ↦ { client with receiving := client.receiving.runResuming index timedOut }
  | .goOn now index input => goOn now index input
  | .goOnResuming now index input => goOnResuming now index input
  | .disk disk => update fun client ↦ { client with receiving.disk := disk }

/-- Sessions start when no loop runs, and frames and the end of the loop need one that runs. -/
def Enabled (client : FerryControlClient) : ControlEvent → Prop
  | .startSession .. => client.receiving.running = false
  | .frame .. | .loopEnd _ => client.receiving.running = true
  | _ => True

instance (client : FerryControlClient) : ∀ event, Decidable (client.Enabled event)
  | .startSession .. => inferInstanceAs (Decidable (_ = _))
  | .frame .. | .loopEnd _ => inferInstanceAs (Decidable (_ = _))
  | .acceptPairing | .rejectPairing | .setAutoAcceptTransfers _ | .acceptIncomingTransfer
  | .rejectIncomingTransfer | .cancelIncomingTransfer _ | .cancelOutgoingTransfer | .requestResume ..
  | .discardInterrupted _ | .sendFile .. | .sendBatch .. | .decideIncoming .. | .awaitResume ..
  | .goOn .. | .goOnResuming .. | .disk _ => .isTrue trivial

/-- One event. -/
def step (client : FerryControlClient) (event : ControlEvent) : FerryControlClient :=
  if client.Enabled event then (act event client).2 else client

def run (client : FerryControlClient) (events : List ControlEvent) : FerryControlClient :=
  events.foldl step client

/-- A client that has just been created, with the records that earlier processes left. -/
def new (receiving : TransferClient) (publicKeyB64 : Text) (store : InterruptedTransferStore) :
    FerryControlClient where
  receiving
  publicKeyB64
  sessions := 0
  sessionState := .disconnected
  remoteStaticB64 := []
  transferAnswers := []
  pendingTransferAccept := none
  batchAnswers := []
  pendingBatchAccept := none
  resumeIds := []
  outgoingCancelled := false
  outgoingCancelledByPeer := false
  jobs := []
  resumeSends := []
  interruptedStore := store
  transferHistory := []
  written := []
  returned := []

end FerryControlClient

end Ferry
