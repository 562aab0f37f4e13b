import Ferry.Android.Transfers
import Ferry.Service.Database

/-!
# Outgoing transfers of the Android client

`FerryControlClient` with the part that sends: `sendFile` and `sendBatch`, the answer to a resume
request, the history and the store of interrupted transfers, beside the part that receives.  A
coroutine is the data that it keeps between two points at which it waits, and what it reads of a content
URI is given by the environment, read by read.
-/

namespace Ferry

open Exec

/-! ## Records -/

/-- `TransferMetadata.toJson`, as the map that `fromJson` reads. -/
def Kotlin.TransferMetadata.toMap (metadata : Kotlin.TransferMetadata) : String → Kotlin.MapValue
  | "transfer_id" => .string metadata.transferId
  | "file_name" => .string metadata.fileName
  | "file_size" => .number (toInt32 metadata.fileSize) metadata.fileSize
  | "mime_type" => .string metadata.mimeType
  | "sha256" => .string metadata.sha256
  | "chunk_size" => .number metadata.chunkSize metadata.chunkSize
  | "chunk_count" => .number metadata.chunkCount metadata.chunkCount
  | "sender_identity" => .string metadata.senderIdentity
  | "created_at" => .number (toInt32 metadata.createdAt) metadata.createdAt
  | "protocol_version" => .number metadata.protocolVersion metadata.protocolVersion
  | "batch_id" => .string metadata.batchId
  | "relative_path" => .string metadata.relativePath
  | _ => .other

/-- `InterruptedRecord`.  The metadata is a map instead of its JSON text. -/
structure InterruptedRecord where
  transferId : Text
  fileName : Text
  fileSize : ℤ
  mimeType : Text
  sha256 : Text
  chunkSize : ℤ
  chunkCount : ℤ
  senderIdentity : Text
  receiverIdentity : Text
  originalMetadata : String → Kotlin.MapValue
  bytesReceived : ℤ
  resumeChunkIndex : ℤ
  partialSha256 : Text
  interruptedAt : ℤ
  expireAt : ℤ
  direction : Direction
  contentUriString : Option Text

/-- What `requestResume` reads of a record. -/
def InterruptedRecord.resumed (record : InterruptedRecord) : TransferClient.InterruptedRecord where
  transferId := record.transferId
  originalMetadata := record.originalMetadata
  bytesReceived := record.bytesReceived
  resumeChunkIndex := record.resumeChunkIndex

/-- `InterruptedTransferStore`. -/
abbrev InterruptedTransferStore : Type := Dict Text InterruptedRecord

namespace InterruptedTransferStore

/-- `TTL_MS`. -/
def ttlMs : ℤ := 7 * 24 * 60 * 60 * 1000

def makeExpireAt (nowMs : ℤ) : ℤ := nowMs + ttlMs

/-- `get`: the record, and the store without it when it has expired. -/
def load (store : InterruptedTransferStore) (now : ℤ) (transferId : Text) :
    Option InterruptedRecord × InterruptedTransferStore :=
  match store.get transferId with
  | none => (none, store)
  | some record => if record.expireAt < now then (none, store.pop transferId) else (some record, store)

end InterruptedTransferStore

/-- `TransferHistoryEntry`. -/
structure TransferHistoryEntry where
  transferId : Text
  fileName : Text
  fileSize : ℤ
  direction : Direction
  success : Bool
  timestampMs : ℤ
  deriving DecidableEq

/-- `appendHistory` on the list. -/
def appendHistory (entry : TransferHistoryEntry) (history : List TransferHistoryEntry) :
    List TransferHistoryEntry :=
  if history.any (fun old ↦ old.transferId = entry.transferId) then history
  else (entry :: history).take 50

/-! ## Coroutines -/

/-- What the client writes for its own transfers. -/
inductive OutgoingFrame
  | transferRequest (payload : Kotlin.TransferMetadata)
  | chunk (transferId : Text) (seq : ℤ) (data : Bytes)
  | transferComplete (transferId : Text)
  | transferCancel (transferId : Text) (reason : String)
  | transferResumeAccept (transferId : Text) (resumeChunkIndex : ℤ)
  | transferResumeReject (transferId : Text) (reason : String)
  | batchRequest (batchId batchName : Text) (totalItems totalBytes : ℤ) (senderIdentity : Text)
      (createdAt : ℤ)
  | batchComplete (batchId : Text)
  | batchCancel (batchId : Text)
  deriving DecidableEq

/-- Where `sendFile` is: TRANSFER_REQUEST is written and the deferred not yet there, it waits for the
deferred, it streams, the stream is over, the last message is written. -/
inductive SendPhase
  | requested
  | awaiting (deferred : ℕ)
  | streaming
  | streamed (streamSuccess : Bool)
  | ending (streamSuccess : Bool)
  deriving DecidableEq

/-- A call of `sendFile`: its session, the payload of its request, what it read to compute the hash of
the request, the number of the next chunk, and what it fed to the digest while it streamed. -/
structure FileSend where
  session : ℕ
  uri : Text
  payload : Kotlin.TransferMetadata
  hashed : Option Bytes
  seq : ℤ
  digest : Bytes
  phase : SendPhase
  deriving DecidableEq

/-- Where `sendBatch` is. -/
inductive BatchPhase
  | requested
  | awaiting (deferred : ℕ)
  | items
  deriving DecidableEq

/-- A call of `sendBatch`, with the URIs that are still to be sent and the outcome of the items. -/
structure BatchSend where
  session : ℕ
  batchId : Text
  uris : List Text
  success : Bool
  phase : BatchPhase
  deriving DecidableEq

/-- A coroutine that sends: `sendFile`, or `sendBatch` with the item that it is sending. -/
structure SendJob where
  batch : Option BatchSend
  file : Option FileSend
  deriving DecidableEq

/-- Where `onResumeRequest` is. -/
inductive ResumePhase
  | launched
  | accepted (uri : Text)
  | streaming
  | streamed
  deriving DecidableEq

/-- A coroutine of `onResumeRequest`. -/
structure ResumeSend where
  session : ℕ
  transferId : Text
  resumeChunkIndex : ℤ
  resumeOffsetBytes : ℤ
  partialSha256 : Text
  seq : ℤ
  phase : ResumePhase
  deriving DecidableEq

/-- `FerryControlClient`: the part that receives, the state of the session and the key that authenticated
it, the deferreds of `sendFile`, `sendBatch` and `requestResume` with the slots for them, and the
coroutines.  The deferreds of `sendFile` and `requestResume` have the identifier of their transfer beside
them, and `returned` records what the calls of `sendFile` returned. -/
structure FerryControlClient where
  receiving : TransferClient
  publicKeyB64 : Text
  sessions : ℕ
  sessionState : SessionState
  remoteStaticB64 : Text
  transferAnswers : List (Text × Option Bool)
  pendingTransferAccept : Option ℕ
  batchAnswers : List (Option Bool)
  pendingBatchAccept : Option ℕ
  resumeIds : List Text
  outgoingCancelled : Bool
  outgoingCancelledByPeer : Bool
  jobs : List SendJob
  resumeSends : List ResumeSend
  interruptedStore : InterruptedTransferStore
  transferHistory : List TransferHistoryEntry
  written : List OutgoingFrame
  returned : List (Text × Bool)

namespace FerryControlClient

/-- A function of the client. -/
abbrev Action (α : Type) : Type := Exec KotlinException FerryControlClient α

def update (f : FerryControlClient → FerryControlClient) : Action Unit := modify f

/-- Call a function of the part that receives. -/
def onReceiving {α : Type} (m : TransferClient.Action α) : Action α :=
  zoom FerryControlClient.receiving (fun receiving client ↦ { client with receiving }) m

/-- `sendEncryptedMessage`, and the callback that writes a chunk: a coroutine keeps the session and the
stream that it started with. -/
def write (session : ℕ) (frame : OutgoingFrame) : Action Unit := do
  let client ← get
  raiseIf (client.receiving.running = false ∨ session ≠ client.sessions) .ioException
  update fun client ↦ { client with receiving.sendFaults := client.receiving.sendFaults.tail }
  raiseIf (client.receiving.sendFaults.headD false = true) .ioException
  update fun client ↦ { client with written := client.written ++ [frame] }

/-- The session that `sendFile`, `sendBatch` and `requestResume` ask for. -/
def Established (client : FerryControlClient) : Prop :=
  client.receiving.running = true ∧ client.sessionState = .established

instance (client : FerryControlClient) : Decidable client.Established :=
  inferInstanceAs (Decidable (_ ∧ _))

def record (entry : TransferHistoryEntry) : Action Unit :=
  update fun client ↦ { client with transferHistory := appendHistory entry client.transferHistory }

/-- The deferreds after `complete(value)` of the one at an index: the first value stays. -/
def completed (answers : List (Text × Option Bool)) (value : Bool) : Option ℕ → List (Text × Option Bool)
  | none => answers
  | some k => answers.modify k fun answer ↦ (answer.1, answer.2.or (some value))

/-- `pendingTransferAccept?.complete(value); pendingTransferAccept = null`. -/
def completeAccept (value : Bool) : Action Unit :=
  update fun client ↦ { client with
    transferAnswers := completed client.transferAnswers value client.pendingTransferAccept
    pendingTransferAccept := none }

/-- `pendingBatchAccept?.complete(value)`. -/
def completeBatch (value : Bool) : Action Unit :=
  update fun client ↦ { client with
    batchAnswers :=
      match client.pendingBatchAccept with
      | none => client.batchAnswers
      | some k => client.batchAnswers.modify k fun answer ↦ answer.or (some value) }

/-! ## `sendFile` -/

/-- What the content resolver answers for a URI: the name and the size, whether the stream opens, and
what the first pass reads, unless it fails. -/
structure SourceFile where
  fileName : Text
  fileSize : ℤ
  mimeType : Text
  opens : Bool
  content : Option Bytes

/-- What a coroutine that goes on is given: nothing but its turn, the end of its timeout, a read of its
stream, an opened stream with the answer to `skip`, or the next file of a batch with its identifier. -/
inductive SendInput
  | turn
  | timeout
  | data (data : Bytes)
  | eof
  | readError
  | opened (skipped : Option ℤ)
  | item (transferId : Text) (source : SourceFile)

/-- The outcome of one turn of a coroutine. -/
inductive Progress (α : Type)
  | waits
  | goesOn (state : α)
  | returns (value : Bool)

/-- The hash of the request: of the content, or 64 zeros. -/
def requestSha256 : Option Bytes → Text
  | some content => Sha256.hexdigest content
  | none => List.replicate 64 0x30

/-- The payload of TRANSFER_REQUEST. -/
def requestPayload (client : FerryControlClient) (now : ℤ) (transferId : Text) (source : SourceFile)
    (batchId : Text) : Kotlin.TransferMetadata where
  transferId
  fileName := source.fileName
  fileSize := source.fileSize
  mimeType := source.mimeType
  sha256 := requestSha256 source.content
  chunkSize := chunkSizeDefault
  chunkCount := Kotlin.TransferMetadata.expectedChunks source.fileSize chunkSizeDefault
  senderIdentity := client.publicKeyB64
  createdAt := now
  protocolVersion := 1
  batchId
  relativePath := []

/-- `sendFile` up to the write of TRANSFER_REQUEST. -/
def startFile (now : ℤ) (uri transferId : Text) (source : SourceFile) (batchId : Text) :
    Action (Progress FileSend) := do
  let client ← get
  if ¬client.Established ∨ source.opens = false then return .returns false
  else
    update fun client ↦ { client with outgoingCancelled := false, outgoingCancelledByPeer := false }
    let payload := client.requestPayload now transferId source batchId
    write client.sessions (.transferRequest payload)
    return .goesOn ⟨client.sessions, uri, payload, source.content, 0, [], .requested⟩

/-- The end of `sendFile` with an entry of the history. -/
def returnFile (now : ℤ) (file : FileSend) (success : Bool) : Action (Progress FileSend) := do
  record ⟨file.payload.transferId, file.payload.fileName, file.payload.fileSize, .outgoing, success, now⟩
  update fun client ↦ { client with returned := (file.payload.transferId, success) :: client.returned }
  return .returns success

/-- The deferred of `sendFile`, which is made after the request was written. -/
def awaitAccept (file : FileSend) : Action (Progress FileSend) := do
  let client ← get
  update fun client ↦ { client with
    transferAnswers := client.transferAnswers ++ [(file.payload.transferId, none)]
    pendingTransferAccept := some client.transferAnswers.length }
  return .goesOn { file with phase := .awaiting client.transferAnswers.length }

/-- The value of the deferred. -/
def onAnswer (now : ℤ) (file : FileSend) : Option Bool → Action (Progress FileSend)
  | none => return .waits
  | some true => return .goesOn { file with phase := .streaming }
  | some false => returnFile now file false

/-- The timeout of the wait, which leaves no entry in the history. -/
def abandonFile (file : FileSend) : Action (Progress FileSend) := do
  update fun client ↦ { client with
    pendingTransferAccept := none
    returned := (file.payload.transferId, false) :: client.returned }
  return .returns false

/-- One round of `streamChunksFromStream`. -/
def streamChunk (file : FileSend) : SendInput → Action (Progress FileSend)
  | .data data => do
    let chunk := data.take chunkSizeDefault
    write file.session (.chunk file.payload.transferId file.seq chunk)
    return .goesOn { file with
      seq := Kotlin.TransferMetadata.toInt32 (file.seq + 1), digest := file.digest ++ chunk }
  | .eof => return .goesOn { file with phase := .streamed true }
  | .readError => throw .ioException
  | _ => return .waits

/-- The record of an outgoing transfer whose stream was broken off. -/
def outgoingRecord (client : FerryControlClient) (now : ℤ) (file : FileSend) : InterruptedRecord where
  transferId := file.payload.transferId
  fileName := file.payload.fileName
  fileSize := file.payload.fileSize
  mimeType := file.payload.mimeType
  sha256 := file.payload.sha256
  chunkSize := chunkSizeDefault
  chunkCount := file.payload.chunkCount
  senderIdentity := client.publicKeyB64
  receiverIdentity := client.receiving.connectedPeerStaticB64
  originalMetadata := file.payload.toMap
  bytesReceived := file.digest.length
  resumeChunkIndex := Kotlin.TransferMetadata.toInt32 (file.digest.length / chunkSizeDefault)
  partialSha256 := []
  interruptedAt := now
  expireAt := InterruptedTransferStore.makeExpireAt now
  direction := .outgoing
  contentUriString := some file.uri

/-- What `sendFile` does after a stream that was cancelled. -/
def abortStream (now : ℤ) (file : FileSend) : Action Unit := do
  let client ← get
  if client.outgoingCancelled = false ∧ client.outgoingCancelledByPeer = false ∧ file.digest ≠ [] then
    if Text.isBlank client.receiving.connectedPeerStaticB64 = false then
      update fun client ↦ { client with
        interruptedStore := client.interruptedStore.set file.payload.transferId
          (client.outgoingRecord now file) }
  else if client.outgoingCancelledByPeer = false then
    write file.session (.transferCancel file.payload.transferId "USER_CANCELLED")

/-- A call of `sendFile` goes on. -/
def goOnFile (now : ℤ) (input : SendInput) (file : FileSend) : Action (Progress FileSend) := do
  let client ← get
  match file.phase with
  | .requested => awaitAccept file
  | .awaiting k =>
    match input with
    | .timeout => abandonFile file
    | _ => onAnswer now file (client.transferAnswers[k]?.bind Prod.snd)
  | .streaming =>
    if client.outgoingCancelled then return .goesOn { file with phase := .streamed false }
    else streamChunk file input
  | .streamed true => do
    write file.session (.transferComplete file.payload.transferId)
    return .goesOn { file with phase := .ending true }
  | .streamed false => do
    abortStream now file
    return .goesOn { file with phase := .ending false }
  | .ending success => returnFile now file success

/-! ## `sendBatch` -/

/-- `sendBatch` up to the write of BATCH_REQUEST. -/
def startBatch (now : ℤ) (uris : List Text) (batchId batchName : Text) (totalBytes : ℤ) :
    Action (Progress BatchSend) := do
  let client ← get
  if ¬client.Established ∨ uris = [] then return .returns false
  else
    update fun client ↦ { client with outgoingCancelled := false, outgoingCancelledByPeer := false }
    write client.sessions
      (.batchRequest batchId batchName uris.length totalBytes client.publicKeyB64 now)
    return .goesOn ⟨client.sessions, batchId, uris, true, .requested⟩

/-- The deferred of `sendBatch`. -/
def awaitBatch (batch : BatchSend) : Action (Progress BatchSend) := do
  let client ← get
  update fun client ↦ { client with
    batchAnswers := client.batchAnswers ++ [none]
    pendingBatchAccept := some client.batchAnswers.length }
  return .goesOn { batch with phase := .awaiting client.batchAnswers.length }

/-- The last message of `sendBatch`. -/
def returnBatch (batch : BatchSend) (success : Bool) : Action (Progress BatchSend) := do
  write batch.session (if success then .batchComplete batch.batchId else .batchCancel batch.batchId)
  return .returns success

/-- A call of `sendBatch` goes on that is not sending an item. -/
def goOnBatch (input : SendInput) (batch : BatchSend) : Action (Progress BatchSend) := do
  let client ← get
  match batch.phase with
  | .requested => awaitBatch batch
  | .awaiting k =>
    match input with
    | .timeout => do
      update fun client ↦ { client with pendingBatchAccept := none }
      return .returns false
    | _ =>
      match client.batchAnswers[k]?.join with
      | none => return .waits
      | some true => return .goesOn { batch with phase := .items }
      | some false => return .returns false
  | .items =>
    match batch.uris with
    | [] => returnBatch batch batch.success
    | _ :: _ =>
      if batch.success = false ∨ client.outgoingCancelled = true ∨ client.outgoingCancelledByPeer = true
      then returnBatch batch false
      else return .waits

/-- The next item of a batch that is ready for it. -/
def nextItem (now : ℤ) (input : SendInput) (batch : BatchSend) :
    Action (Option (BatchSend × Progress FileSend)) := do
  let client ← get
  match batch.phase, batch.uris, input with
  | .items, uri :: uris, .item transferId source =>
    if batch.success = false ∨ client.outgoingCancelled = true ∨ client.outgoingCancelledByPeer = true
    then return none
    else
      let started ← startFile now uri transferId source batch.batchId
      return some ({ batch with uris }, started)
  | _, _, _ => return none

/-! ## The answer to a resume request -/

/-- `computePrefixSha256FromUri`, for a content that is read to its end unless that fails. -/
def computePrefixSha256FromUri (content : Option Bytes) (lengthBytes : ℤ) : Option Text :=
  content.bind fun data ↦
    if (data.length : ℤ) < lengthBytes then none
    else some (Sha256.hexdigest (data.take lengthBytes.toNat))

/-- `reject`, which swallows the exception of its write. -/
def rejectResume (resume : ResumeSend) (reason : String) : Action (Progress ResumeSend) := do
  tryCatch (write resume.session (.transferResumeReject resume.transferId reason)) fun _ ↦ pure ()
  return .returns false

/-- `onResumeRequest` up to its ACCEPT. -/
def verifyPrefix (now : ℤ) (content : Option Bytes) (resume : ResumeSend) :
    Action (Progress ResumeSend) := do
  let client ← get
  let (record, store) := client.interruptedStore.load now resume.transferId
  update fun client ↦ { client with interruptedStore := store }
  match record.bind InterruptedRecord.contentUriString with
  | none => rejectResume resume "TRANSFER_NOT_FOUND"
  | some uri =>
    if computePrefixSha256FromUri content resume.resumeOffsetBytes ≠ some resume.partialSha256 then
      rejectResume resume "PARTIAL_CORRUPT"
    else
      tryCatch
        (do
          write resume.session (.transferResumeAccept resume.transferId resume.resumeChunkIndex)
          return .goesOn { resume with phase := .accepted uri })
        fun _ ↦ return .returns false

/-- The `finally` of `onResumeRequest`. -/
def forgetRecord (resume : ResumeSend) (m : Action (Progress ResumeSend)) :
    Action (Progress ResumeSend) := do
  let progress ← tryCatch m fun _ ↦ return .returns false
  match progress with
  | .returns value => do
    update fun client ↦ { client with
      interruptedStore := client.interruptedStore.pop resume.transferId }
    return .returns value
  | progress => return progress

/-- One round of the stream of `onResumeRequest`, whose result is not looked at. -/
def streamResumed (resume : ResumeSend) (input : SendInput) : Action (Progress ResumeSend) := do
  let client ← get
  if client.outgoingCancelled then return .goesOn { resume with phase := .streamed }
  else
    match input with
    | .data data => do
      write resume.session (.chunk resume.transferId resume.seq (data.take chunkSizeDefault))
      return .goesOn { resume with seq := Kotlin.TransferMetadata.toInt32 (resume.seq + 1) }
    | .eof => return .goesOn { resume with phase := .streamed }
    | .readError => throw .ioException
    | _ => return .waits

/-- A coroutine of `onResumeRequest` goes on. -/
def goOnResume (now : ℤ) (input : SendInput) (resume : ResumeSend) : Action (Progress ResumeSend) :=
  match resume.phase with
  | .launched =>
    match input with
    | .item _ source => verifyPrefix now source.content resume
    | _ => return .waits
  | .accepted _ =>
    match input with
    | .opened (some skipped) => forgetRecord resume <|
        if skipped = resume.resumeOffsetBytes then return .goesOn { resume with phase := .streaming }
        else return .returns false
    | .opened none => forgetRecord resume (return .returns false)
    | _ => return .waits
  | .streaming => forgetRecord resume (streamResumed resume input)
  | .streamed => forgetRecord resume do
      write resume.session (.transferComplete resume.transferId)
      return .returns true

end FerryControlClient

end Ferry
