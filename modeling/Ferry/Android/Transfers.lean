import Ferry.Android.Receiver
import Ferry.Transfer.ChunkFrame

/-!
# Incoming transfers of the Android client

The part of `FerryControlClient` that receives files: the messages of the peer, the question to the
user with the coroutine that waits for the answer, the user's own calls, and the end of a session.  A
request opens its receiver and makes it the active one before the user is asked.  What the functions
read and write of the history, the progress display and the store of interrupted transfers is left out.
-/

namespace Ferry

open Exec

/-! ## Chunk frames -/

namespace Kotlin

/-- `ByteBuffer.getInt`. -/
def getInt (data : Bytes) : ℤ := TransferMetadata.toInt32 (ofBigEndian data)

/-- The Kotlin `decodeChunkFrame`: a transfer id, a sequence number and a payload. -/
def decodeChunkFrame (plaintext : Bytes) : Except KotlinException (Text × ℤ × Bytes) := do
  rejectIf (plaintext.length < chunkHeaderSize) (.illegalArgument (.chunkTooShort plaintext.length))
  let magic := plaintext.take 4
  rejectIf (magic ≠ chunkMagic) (.illegalArgument (.chunkMagic magic))
  let transferId := uuidText (ofBigEndian ((plaintext.drop 4).take 16))
  let seq := getInt ((plaintext.drop 20).take 4)
  let payloadLen := getInt ((plaintext.drop 24).take 4)
  rejectIf (chunkSizeDefault < payloadLen) (.illegalArgument (.chunkPayloadLen payloadLen))
  rejectIf (plaintext.length < chunkHeaderSize + payloadLen)
    (.illegalArgument (.chunkTruncated (chunkHeaderSize + payloadLen) plaintext.length))
  rejectIf (payloadLen < 0)
    (.illegalArgument (.copyRange chunkHeaderSize (chunkHeaderSize + payloadLen)))
  return (transferId, seq, (plaintext.drop chunkHeaderSize).take payloadLen.toNat)

end Kotlin

/-! ## The client -/

/-- The messages that the functions of this file send. -/
inductive ClientReply
  | transferReject (transferId : Text) (reason : String)
  | transferError (transferId : Text) (errorCode : String) (cause : KotlinException)
  | transferAccept (transferId : Text)
  | transferResult (transferId : Text) (success : Bool)
  | transferCancel (transferId : Text) (reason : String)
  | transferResumeRequest (transferId : Text) (resumeChunkIndex resumeOffsetBytes : ℤ)
      (partialSha256 : Text)
  | batchReject (batchId : Text) (reason : String)
  | batchAccept (batchId : Text)
  deriving DecidableEq

/-- What happened to the TRANSFER_REQUEST of a receiver: whether transfers were accepted automatically
and whether its batch was announced in the session and still open when it was processed, the deferred
that asks the user, whether `acceptIncomingTransfer` was called for it before a chunk was written,
whether `rejectIncomingTransfer` was called for it first, and whether a chunk was written. -/
structure RequestRecord where
  autoAccepted : Bool
  batchOpen : Bool
  deferred : Option ℕ
  accepted : Bool
  rejected : Bool
  written : Bool
  deriving DecidableEq

/-- The fields of `FerryControlClient` that receiving reads and writes.  A `CompletableDeferred` is an
index into the list of the values that the deferreds of its kind were completed with; `waiting` and
`resuming` are the coroutines that wait for one, and `sendFaults` says which of the next writes to the
socket fail.  The last three fields record the batches announced in this session and neither completed
nor cancelled, the request of the active receiver, and the requests whose file was placed. -/
structure TransferClient where
  running : Bool
  stagingDir : Path
  disk : Disk
  autoAcceptTransfers : Bool
  activeReceiver : Option FerryTransferReceiver
  activeReceiverMeta : Option Kotlin.TransferMetadata
  decisions : List (Option Bool)
  pendingIncomingTransferAccept : Option ℕ
  waiting : List (ℕ × Kotlin.TransferMetadata)
  resumeAnswers : List (Option Bool)
  pendingResumeAccept : Option ℕ
  resuming : List ℕ
  handledTransferIds : List Text
  connectedPeerStaticB64 : Text
  activeBatchId : Option Text
  sendFaults : List Bool
  sent : List ClientReply
  announced : List Text
  request : Option RequestRecord
  placed : List RequestRecord

namespace TransferClient

/-- A function of the client. -/
abbrev Action (α : Type) : Type := Exec KotlinException TransferClient α

def update (f : TransferClient → TransferClient) : Action Unit := modify f

/-- `sendEncryptedMessage`. -/
def sendEncryptedMessage (reply : ClientReply) : Action Unit := do
  let client ← get
  update fun client ↦ { client with sendFaults := client.sendFaults.tail }
  raiseIf (client.sendFaults.headD false = true) .ioException
  update fun client ↦ { client with sent := client.sent ++ [reply] }

def onDisk {α : Type} (m : Exec IoError Disk α) : Action α :=
  zoom TransferClient.disk (fun disk client ↦ { client with disk }) (mapError .ofIo m)

/-- Call a method of the active receiver. -/
def onReceiver {α : Type} (receiver : FerryTransferReceiver) (m : FerryTransferReceiver.Method α) :
    Action α :=
  zoom (fun client ↦ ⟨client.disk, receiver⟩)
    (fun w client ↦ { client with disk := w.disk, activeReceiver := some w.self }) m

/-- Call a method of a receiver that is not the active one yet: the outcome, and the receiver. -/
def onNewReceiver {α : Type} (receiver : FerryTransferReceiver)
    (m : FerryTransferReceiver.Method α) :
    Action (Except KotlinException α × FerryTransferReceiver) := fun client ↦
  let (outcome, w) := m ⟨client.disk, receiver⟩
  (.ok (outcome, w.self), { client with disk := w.disk })

/-- `activeReceiver = null; activeReceiverMeta = null`. -/
def dropReceiver : Action Unit :=
  update fun client ↦ { client with activeReceiver := none, activeReceiverMeta := none, request := none }

/-- `activeReceiver?.cancel()`. -/
def cancelActive : Action Unit := do
  let client ← get
  match client.activeReceiver with
  | some receiver => onReceiver receiver FerryTransferReceiver.cancel
  | none => pure ()

def cancelReceiver : Action Unit := do
  cancelActive
  dropReceiver

/-! ## Chunks -/

/-- The chunk reaches the receiver that is active, whatever request opened it. -/
def writeChunk (plaintext : Bytes) : Action Unit := do
  let (transferId, seq, data) ← ofResult (Kotlin.decodeChunkFrame plaintext)
  let client ← get
  match client.activeReceiver with
  | none => pure ()
  | some receiver =>
    onReceiver receiver (FerryTransferReceiver.receiveChunk transferId seq data)
    update fun client ↦ { client with request := client.request.map fun r ↦ { r with written := true } }

/-- `onChunkReceived`. -/
def onChunkReceived (plaintext : Bytes) : Action Unit :=
  tryCatch (writeChunk plaintext) fun _ ↦ cancelReceiver

/-! ## Requests -/

/-- The record of a request whose receiver has just become the active one. -/
def newRecord (client : TransferClient) (metadata : Kotlin.TransferMetadata) (deferred : Option ℕ) :
    RequestRecord where
  autoAccepted := client.autoAcceptTransfers
  batchOpen := metadata.batchId ∈ client.announced
  deferred
  accepted := false
  rejected := false
  written := false

/-- A request that needs no answer of the user. -/
def acceptAtOnce (metadata : Kotlin.TransferMetadata) : Action Unit := do
  update fun client ↦ { client with request := some (client.newRecord metadata none) }
  sendEncryptedMessage (.transferAccept metadata.transferId)

/-- The question to the user, with the coroutine that waits for the answer. -/
def askUser (metadata : Kotlin.TransferMetadata) : Action Unit :=
  update fun client ↦ { client with
    decisions := client.decisions ++ [none]
    pendingIncomingTransferAccept := some client.decisions.length
    waiting := client.waiting ++ [(client.decisions.length, metadata)]
    request := some (client.newRecord metadata (some client.decisions.length)) }

/-- What `onTransferRequest` does with a receiver that has begun. -/
def installReceiver (metadata : Kotlin.TransferMetadata) (receiver : FerryTransferReceiver)
    (isBatched : Bool) : Action Unit := do
  update fun client ↦ { client with
    activeReceiver := some receiver
    activeReceiverMeta := some metadata }
  let client ← get
  if isBatched || client.autoAcceptTransfers then acceptAtOnce metadata else askUser metadata

/-- Caught by `catch (e: java.io.IOException)`. -/
def isIoException : KotlinException → Bool
  | .ioException | .fileNotFound => true
  | _ => false

/-- The `try` of `onTransferRequest`. -/
def beginTransfer (now : ℤ) (fields : String → Kotlin.MapValue) (isBatched : Bool) : Action Unit := do
  let metadata ← ofResult (Kotlin.TransferMetadata.fromMap now fields)
  let client ← get
  onDisk (JavaFile.mkdirs client.stagingDir)
  let (outcome, receiver) ←
    onNewReceiver (FerryTransferReceiver.new metadata client.stagingDir) FerryTransferReceiver.begin
  match outcome with
  | .ok _ => installReceiver metadata receiver isBatched
  | .error e =>
    if isIoException e then
      sendEncryptedMessage (.transferError metadata.transferId "ERR_IO_FAILURE" e)
    else throw e

/-- `onTransferRequest`, for the map that `fromJson` reads out of the payload. -/
def onTransferRequest (now : ℤ) (fields : String → Kotlin.MapValue) : Action Unit := do
  let transferId := (fields "transfer_id").textOr []
  let batchId := (fields "batch_id").textOr []
  let client ← get
  let isBatched := decide (batchId ≠ [] ∧ client.activeBatchId = some batchId)
  if client.activeReceiver.isSome && !isBatched then
    sendEncryptedMessage (.transferReject transferId "BUSY")
  else if batchId ≠ [] ∧ client.activeBatchId ≠ some batchId then
    sendEncryptedMessage (.transferReject transferId "INVALID_BATCH")
  else
    tryCatch (beginTransfer now fields isBatched) fun e ↦
      sendEncryptedMessage (.transferError transferId "INVALID_REQUEST" e)

/-! ## The end of a transfer -/

/-- `handledTransferIds.add`, for an id that is not empty. -/
def markHandled (transferId : Text) : Action Unit :=
  update fun client ↦ { client with
    handledTransferIds :=
      if transferId ≠ [] then transferId :: client.handledTransferIds else client.handledTransferIds }

/-- The id has been handled to its end before. -/
def Handled (client : TransferClient) (transferId : Text) : Prop :=
  transferId ≠ [] ∧ transferId ∈ client.handledTransferIds

instance (client : TransferClient) (transferId : Text) : Decidable (client.Handled transferId) :=
  inferInstanceAs (Decidable (_ ∧ _))

/-- `onTransferComplete` for a receiver: whatever the id, the active one is finalised. -/
def completeTransfer (transferId : Text) (receiver : FerryTransferReceiver) : Action Unit := do
  markHandled transferId
  let success ← onReceiver receiver FerryTransferReceiver.finalise
  update fun client ↦ { client with
    placed := if success then client.placed ++ client.request.toList else client.placed }
  dropReceiver
  sendEncryptedMessage (.transferResult transferId success)

/-- `onTransferComplete`. -/
def onTransferComplete (transferId : Text) : Action Unit := do
  let client ← get
  match client.activeReceiver with
  | none => pure ()
  | some receiver =>
    if client.Handled transferId then pure () else completeTransfer transferId receiver

/-- The branch TRANSFER_CANCEL. -/
def onTransferCancel (transferId : Text) : Action Unit := do
  let client ← get
  if client.Handled transferId then pure ()
  else
    markHandled transferId
    cancelReceiver

/-! ## Batches -/

/-- `onBatchRequest`. -/
def onBatchRequest (batchId : Text) (totalItems : ℤ) : Action Unit :=
  if batchId = [] ∨ totalItems ≤ 0 then
    sendEncryptedMessage (.batchReject batchId "INVALID_REQUEST")
  else do
    update fun client ↦ { client with
      activeBatchId := some batchId
      announced := batchId :: client.announced }
    sendEncryptedMessage (.batchAccept batchId)

/-- What `onBatchCancel` and `onBatchComplete` do to an incoming batch. -/
def closeBatch (batchId : Text) : Action Unit :=
  update fun client ↦ { client with
    activeBatchId := if client.activeBatchId = some batchId then none else client.activeBatchId
    announced := client.announced.filter (· ≠ batchId) }

/-! ## Resuming -/

/-- `pendingResumeAccept?.complete(value); pendingResumeAccept = null`. -/
def completeResume (value : Bool) : Action Unit :=
  update fun client ↦ { client with
    resumeAnswers :=
      match client.pendingResumeAccept with
      | some k => if client.resumeAnswers[k]? = some none then client.resumeAnswers.set k (some value)
        else client.resumeAnswers
      | none => client.resumeAnswers
    pendingResumeAccept := none }

/-- The branch TRANSFER_RESUME_ACCEPT. -/
def onResumeAccept (transferId : Text) (resumeChunkIndex : ℤ) : Action Unit := do
  let client ← get
  match client.activeReceiver with
  | none => completeResume true
  | some receiver =>
    if client.activeReceiverMeta.map Kotlin.TransferMetadata.transferId = some transferId then
      tryCatch
        (do
          onReceiver receiver (FerryTransferReceiver.resume resumeChunkIndex)
          completeResume true)
        fun _ ↦ do
          cancelReceiver
          completeResume false
    else completeResume true

/-- The branch TRANSFER_RESUME_REJECT. -/
def onResumeReject : Action Unit := do
  cancelReceiver
  completeResume false

/-- What `requestResume` reads of an `InterruptedRecord`, with the map of its metadata. -/
structure InterruptedRecord where
  transferId : Text
  originalMetadata : String → Kotlin.MapValue
  bytesReceived : ℤ
  resumeChunkIndex : ℤ

/-- The end of `requestResume` up to its wait, for a receiver in the state INTERRUPTED. -/
def askPeer (record : InterruptedRecord) (partialSha256 : Text) : Action Unit := do
  update fun client ↦ { client with
    resumeAnswers := client.resumeAnswers ++ [none]
    pendingResumeAccept := some client.resumeAnswers.length }
  tryCatch
    (do
      sendEncryptedMessage (.transferResumeRequest record.transferId record.resumeChunkIndex
        record.bytesReceived partialSha256)
      update fun client ↦ { client with
        resuming := client.resuming ++ [client.resumeAnswers.length - 1] })
    fun _ ↦ do
      cancelReceiver
      update fun client ↦ { client with pendingResumeAccept := none }

/-- The middle of `requestResume`: the receiver of an earlier session is rebuilt. -/
def rebuildReceiver (record : InterruptedRecord) (metadata : Kotlin.TransferMetadata)
    (partialSha256 : Text) : Action Unit := do
  let client ← get
  let (_, begun) ←
    onNewReceiver (FerryTransferReceiver.new metadata client.stagingDir) FerryTransferReceiver.begin
  let (_, receiver) ← onNewReceiver begun FerryTransferReceiver.interrupt
  update fun client ↦ { client with
    activeReceiver := some receiver
    activeReceiverMeta := some metadata
    request := none }
  askPeer record partialSha256

/-- `requestResume`, up to its wait for the peer.  Where this raises it returns `false`. -/
def requestResume (now : ℤ) (record : InterruptedRecord) : Action Unit := do
  let metadata ← ofResult (Kotlin.TransferMetadata.fromMap now record.originalMetadata)
  let client ← get
  let partFile := JavaFile.child client.stagingDir (record.transferId ++ Text.lit ".part")
  let found ← onDisk (JavaFile.fileExists partFile)
  raiseIf (found = false) .fileNotFound
  let (data, error) ← onDisk (Disk.readBlocks partFile)
  raiseIf (error ≠ none) .ioException
  rebuildReceiver record metadata (Sha256.hexdigest data)

/-! ## The user -/

/-- The client after `pendingIncomingTransferAccept?.complete(value)`: the first value stays. -/
def decided (client : TransferClient) (value : Bool) (note : RequestRecord → RequestRecord) :
    TransferClient :=
  match client.pendingIncomingTransferAccept with
  | none => client
  | some k =>
    if client.decisions[k]? = some none then { client with
      decisions := client.decisions.set k (some value)
      request := client.request.map fun r ↦ if r.deferred = some k then note r else r }
    else client

/-- `acceptIncomingTransfer`. -/
def acceptIncomingTransfer : Action Unit :=
  update fun client ↦ client.decided true fun r ↦ { r with accepted := !r.written }

/-- `rejectIncomingTransfer`. -/
def rejectIncomingTransfer : Action Unit :=
  update fun client ↦ client.decided false fun r ↦ { r with rejected := true }

/-- The end of the coroutine that waits for the user: whatever receiver is active is cancelled when the
request was not accepted. -/
def decideIncoming (metadata : Kotlin.TransferMetadata) (accepted : Bool) : Action Unit := do
  update fun client ↦ { client with pendingIncomingTransferAccept := none }
  if accepted then sendEncryptedMessage (.transferAccept metadata.transferId)
  else
    cancelReceiver
    sendEncryptedMessage (.transferReject metadata.transferId "USER_REJECTED")

/-- `cancelIncomingTransfer`. -/
def cancelIncomingTransfer (transferId : Option Text) : Action Unit := do
  let client ← get
  match (client.activeReceiverMeta.map Kotlin.TransferMetadata.transferId).or transferId with
  | none => pure ()
  | some currentId =>
    cancelReceiver
    tryCatch (sendEncryptedMessage (.transferCancel currentId "USER_CANCELLED")) fun _ ↦ pure ()

/-- The timeout of `requestResume`. -/
def abandonResume : Action Unit := do
  update fun client ↦ { client with pendingResumeAccept := none }
  cancelReceiver

/-! ## Sessions -/

/-- The active receiver at the end of a session: it stays on the disk when the transfer can be
resumed with a peer that is known, and is cancelled otherwise. -/
def interruptActive : Action Unit := do
  let client ← get
  match client.activeReceiver, client.activeReceiverMeta with
  | some receiver, some _ =>
    let interrupted ← onReceiver receiver FerryTransferReceiver.interrupt
    if 0 ≤ interrupted ∧ Text.isBlank client.connectedPeerStaticB64 = false then pure ()
    else cancelActive
  | _, _ => cancelActive

/-- The `finally` of `runEncryptedSessionLoop`. -/
def endLoop : Action Unit := do
  update fun client ↦ { client with running := false }
  interruptActive
  dropReceiver
  completeResume false
  update fun client ↦ { client with connectedPeerStaticB64 := [] }

/-- The start of a session, with the key of a peer that is trusted. -/
def startLoop (peerKey : Text) : Action Unit :=
  update fun client ↦ { client with running := true, connectedPeerStaticB64 := peerKey, announced := [] }

end TransferClient

/-- The messages of the peer that `handleTransferMessage` knows. -/
inductive PeerMessage
  | transferRequest (fields : String → Kotlin.MapValue)
  | transferComplete (transferId : Text)
  | transferCancel (transferId : Text)
  | transferError
  | transferAccept (transferId : Text)
  | transferReject (transferId : Text)
  | transferResumeAccept (transferId : Text) (resumeChunkIndex : ℤ)
  | transferResumeReject
  | batchRequest (batchId : Text) (totalItems : ℤ)
  | batchCancel (batchId : Text)
  | batchComplete (batchId : Text)
  | other

/-- A decrypted frame. -/
inductive PeerFrame
  | chunk (plaintext : { plaintext : Bytes // isChunkFrame plaintext = true })
  | message (message : PeerMessage)

/-- What may happen to the client: sessions that start and end, frames, the user's calls, the coroutines
that go on or time out, and other programs that use the disk. -/
inductive TransferEvent
  | startLoop (peerKey : Text)
  | frame (now : ℤ) (frame : PeerFrame)
  | loopEnd
  | setAutoAcceptTransfers (value : Bool)
  | acceptIncomingTransfer
  | rejectIncomingTransfer
  | cancelIncomingTransfer (transferId : Option Text)
  | requestResume (now : ℤ) (record : TransferClient.InterruptedRecord)
  | decideIncoming (index : ℕ) (timedOut : Bool)
  | awaitResume (index : ℕ) (timedOut : Bool)
  | disk (disk : Disk)

namespace TransferClient

/-- `handleTransferMessage`. -/
def handleTransferMessage (now : ℤ) : PeerMessage → Action Unit
  | .transferRequest fields => onTransferRequest now fields
  | .transferComplete transferId => onTransferComplete transferId
  | .transferCancel transferId => onTransferCancel transferId
  | .transferError => cancelReceiver
  | .transferAccept transferId => markHandled transferId
  | .transferReject transferId => markHandled transferId
  | .transferResumeAccept transferId resumeChunkIndex => onResumeAccept transferId resumeChunkIndex
  | .transferResumeReject => onResumeReject
  | .batchRequest batchId totalItems => onBatchRequest batchId totalItems
  | .batchCancel batchId => closeBatch batchId
  | .batchComplete batchId => closeBatch batchId
  | .other => pure ()

/-- One round of the loop. -/
def processFrame (now : ℤ) : PeerFrame → Action Unit
  | .chunk plaintext => onChunkReceived plaintext
  | .message message => handleTransferMessage now message

/-- A round of the loop, which ends when the round raises. -/
def receiveFrame (now : ℤ) (frame : PeerFrame) : Action Unit :=
  tryCatch (processFrame now frame) fun _ ↦ endLoop

/-- The coroutine at an index goes on: with the value of its deferred, or after the timeout. -/
def runWaiting (client : TransferClient) (index : ℕ) (timedOut : Bool) : TransferClient :=
  match client.waiting[index]? with
  | none => client
  | some (k, metadata) =>
    let resumed := { client with waiting := client.waiting.eraseIdx index }
    match timedOut, client.decisions[k]? with
    | true, _ => (decideIncoming metadata false resumed).2
    | false, some (some value) => (decideIncoming metadata value resumed).2
    | false, _ => client

/-- The same for the coroutine of a `requestResume`. -/
def runResuming (client : TransferClient) (index : ℕ) (timedOut : Bool) : TransferClient :=
  match client.resuming[index]? with
  | none => client
  | some k =>
    let resumed := { client with resuming := client.resuming.eraseIdx index }
    match timedOut, client.resumeAnswers[k]? with
    | true, _ => (abandonResume resumed).2
    | false, some (some _) => resumed
    | false, _ => client

/-- One event. -/
def step (client : TransferClient) : TransferEvent → TransferClient
  | .startLoop peerKey => if client.running then client else (startLoop peerKey client).2
  | .frame now frame => if client.running then (receiveFrame now frame client).2 else client
  | .loopEnd => if client.running then (endLoop client).2 else client
  | .setAutoAcceptTransfers value => { client with autoAcceptTransfers := value }
  | .acceptIncomingTransfer => (acceptIncomingTransfer client).2
  | .rejectIncomingTransfer => (rejectIncomingTransfer client).2
  | .cancelIncomingTransfer transferId => (cancelIncomingTransfer transferId client).2
  | .requestResume now record => if client.running then (requestResume now record client).2 else client
  | .decideIncoming index timedOut => client.runWaiting index timedOut
  | .awaitResume index timedOut => client.runResuming index timedOut
  | .disk disk => { client with disk }

def run (client : TransferClient) (events : List TransferEvent) : TransferClient :=
  events.foldl step client

/-- A client that has just been created. -/
def new (stagingDir : Path) (disk : Disk) (autoAcceptTransfers : Bool) (sendFaults : List Bool) :
    TransferClient where
  running := false
  stagingDir
  disk
  autoAcceptTransfers
  activeReceiver := none
  activeReceiverMeta := none
  decisions := []
  pendingIncomingTransferAccept := none
  waiting := []
  resumeAnswers := []
  pendingResumeAccept := none
  resuming := []
  handledTransferIds := []
  connectedPeerStaticB64 := []
  activeBatchId := none
  sendFaults
  sent := []
  announced := []
  request := none
  placed := []

end TransferClient

end Ferry
