import Ferry.Transfer.ChunkFrame
import Ferry.Transfer.ResumePayload

/-!
# Incoming transfers

`IncomingTransfer`: the object that writes the chunks of one transfer to a `.part` file, and the
methods that move it through its states.  A method is a computation on the object and the disk.
-/

namespace Ferry

open Exec Text

/-- The download directory, as a resolved path. -/
structure DownloadDir where
  path : Path
  isName : ∀ c ∈ path, Path.IsName c

/-- `download_dir / "staging"`. -/
def DownloadDir.staging (dir : DownloadDir) : Path := Path.join dir.path (lit "staging")

/-- `staging_dir / f"{transfer_id}.part"`, as the path of the file it names. -/
def TransferMetadata.partPath (metadata : TransferMetadata) (dir : DownloadDir) : Path :=
  (Path.join dir.staging (metadata.transferId ++ lit ".part")).resolve

/-- `IncomingTransfer`.  The running hasher is represented by the bytes fed to it. -/
structure IncomingTransfer where
  metadata : TransferMetadata
  downloadDir : DownloadDir
  state : TransferState
  tempPath : Option Path
  finalPath : Option Path
  hasher : Bytes
  bytesReceived : ℕ
  nextSeq : ℤ
  tempFh : Option Handle

namespace IncomingTransfer

/-- `__init__`. -/
def new (metadata : TransferMetadata) (downloadDir : DownloadDir) : IncomingTransfer where
  metadata := metadata
  downloadDir := downloadDir
  state := .idle
  tempPath := none
  finalPath := none
  hasher := []
  bytesReceived := 0
  nextSeq := 0
  tempFh := none

/-- `f"{transfer_id[:8]}_{dest.name}"` beside `dest`, as the path of the file it names. -/
def conflictPath (self : IncomingTransfer) (dest : Path) : Path :=
  (Path.join dest.parent (self.metadata.transferId.take 8 ++ lit "_" ++ dest.name)).resolve

/-- The path that `finalise` renames to. -/
def destination (self : IncomingTransfer) (disk : Disk) (finalPath : Path) : Path :=
  if disk.Exists finalPath then self.conflictPath finalPath else finalPath

end IncomingTransfer

/-- The disk and the object that a method runs on. -/
structure World where
  disk : Disk
  self : IncomingTransfer

/-- A method of `IncomingTransfer`. -/
abbrev Method (α : Type) : Type := Exec PyError World α

namespace IncomingTransfer

/-! ## Access to the object and the disk -/

def onDisk {α : Type} (m : Exec IoError Disk α) : Method α :=
  zoom World.disk (fun disk w ↦ { w with disk }) (mapError .ofIo m)

def update (f : IncomingTransfer → IncomingTransfer) : Method Unit :=
  modify fun w ↦ { w with self := f w.self }

def setState (state : TransferState) : Method Unit := update fun self ↦ { self with state }

/-- `self._state = _transfer_transition(self._state, new)`. -/
def transition (new : TransferState) : Method Unit := do
  let w ← get
  let state ← ofResult (transferTransition w.self.state new)
  setState state

/-- A call on `self._temp_fh`, which is an `AttributeError` when there is no open file. -/
def onTempFh {α : Type} (m : Exec IoError (Disk × Handle) α) : Method α := do
  let w ← get
  match w.self.tempFh with
  | none => throw .attribute
  | some handle =>
    zoom (fun w ↦ (w.disk, handle))
      (fun s w ↦ { w with disk := s.1, self := { w.self with tempFh := some s.2 } })
      (mapError .ofIo m)

/-- Assign `self._temp_fh`; the file it named before is dropped. -/
def assignTempFh (fh : Option Handle) : Method Unit := do
  let w ← get
  update fun self ↦ { self with tempFh := fh }
  match w.self.tempFh with
  | none => pure ()
  | some handle => onDisk handle.drop

/-! ## Cleanup -/

/-- `_cleanup_temp`. -/
def cleanupTemp : Method Unit := do
  let w ← get
  match w.self.tempPath with
  | none => pure ()
  | some temp =>
    if w.disk.Exists temp then
      tryCatch (onDisk (Disk.unlink temp)) fun _ ↦ pure ()
    else pure ()

/-- `if self._temp_fh: try: close() except Exception: pass`, and `self._temp_fh = None`. -/
def closeTempFh : Method Unit := do
  let w ← get
  if w.self.tempFh.isSome then
    tryCatch (onTempFh Handle.close) fun _ ↦ pure ()
    assignTempFh none
  else pure ()

/-- `_cleanup_on_io_error`. -/
def cleanupOnIoError : Method Unit := do
  closeTempFh
  cleanupTemp
  setState .failed

/-- `cancel`. -/
def cancel : Method Unit := do
  closeTempFh
  cleanupTemp
  setState .cancelled

/-! ## Receiving -/

/-- The body of the `try` of `begin`. -/
def openStaging : Method Unit := do
  let w ← get
  let temp := w.self.metadata.partPath w.self.downloadDir
  onDisk (Disk.mkdir w.self.downloadDir.staging)
  onDisk (Disk.mkdir w.self.downloadDir.path)
  update fun self ↦ { self with tempPath := some temp }
  let dest ← ofResult (resolveSafeDestination w.self.downloadDir.path w.self.metadata.fileName
    w.self.metadata.relativePath)
  update fun self ↦ { self with finalPath := some dest }
  onDisk (Disk.mkdir dest.parent)
  let fh ← onDisk (Handle.openTruncate temp)
  assignTempFh (some fh)

/-- `begin`. -/
def begin : Method Unit := do
  transition .accepted
  tryCatch openStaging fun e ↦ do
    if e.IsOsError then
      transition .failed
      throw (.transfer .openStaging)
    else throw e
  transition .transferring

/-- `receive_chunk`. -/
def receiveChunk (frame : ChunkFrame) : Method Unit := do
  let w ← get
  raiseIf (w.self.state ≠ .transferring ∧ w.self.state ≠ .resuming)
    (.runtime (.cannotReceive w.self.state))
  raiseIf (frame.transferId ≠ w.self.metadata.transferId)
    (.value (.transferIdMismatch w.self.metadata.transferId frame.transferId))
  raiseIf (frame.seq ≠ w.self.nextSeq) (.value (.outOfOrderChunk w.self.nextSeq frame.seq))
  raiseIf (frame.data.length > w.self.metadata.chunkSize)
    (.value (.chunkTooLong frame.data.length w.self.metadata.chunkSize))
  tryCatch (onTempFh (Handle.write frame.data)) fun e ↦ do
    if e.IsOsError then
      cleanupOnIoError
      throw (.transfer .diskWrite)
    else throw e
  update fun self ↦ { self with
    hasher := self.hasher ++ frame.data
    bytesReceived := self.bytesReceived + frame.data.length
    nextSeq := self.nextSeq + 1 }

/-! ## Finishing -/

/-- `if self._temp_fh: flush(); close(); self._temp_fh = None`. -/
def flushTempFh : Method Unit := do
  let w ← get
  if w.self.tempFh.isSome then
    onTempFh Handle.flush
    onTempFh Handle.close
    assignTempFh none
  else pure ()

/-- The rename of `finalise`, after the digest was found right. -/
def deliver : Method Bool := do
  let w ← get
  match w.self.tempPath, w.self.finalPath with
  | some temp, some finalPath =>
    onDisk (Disk.rename temp (w.self.destination w.disk finalPath))
    transition .completed
    pure true
  | _, _ => throw .assertion

/-- `finalise`. -/
def finalise : Method Bool := do
  flushTempFh
  let w ← get
  if Sha256.hexdigest w.self.hasher ≠ asciiLower w.self.metadata.sha256 then
    cleanupTemp
    transition .failed
    pure false
  else deliver

/-! ## Interrupting -/

/-- Flush and close the file, whatever happens. -/
def releaseTempFh : Method Unit := do
  let w ← get
  if w.self.tempFh.isSome then
    tryCatch (do onTempFh Handle.flush; onTempFh Handle.close) fun _ ↦ pure ()
    assignTempFh none
  else pure ()

/-- The size of the `.part` file, and 0 when it cannot be measured. -/
def bytesOnDisk : Method ℕ := do
  let w ← get
  match w.self.tempPath with
  | none => pure 0
  | some temp =>
    if w.disk.Exists temp then
      tryCatch (onDisk (Disk.stat temp)) fun e ↦ if e.IsOsError then pure 0 else throw e
    else pure 0

/-- `os.truncate` to the chunk boundary below the measured size; its failure is only logged. -/
def truncateToChunk (actual : ℕ) : Method Unit := do
  let w ← get
  let aligned := w.self.nextSeq * w.self.metadata.chunkSize
  match w.self.tempPath with
  | none => pure ()
  | some temp =>
    if aligned < actual then
      tryCatch (do
        raiseIf (aligned < 0) .osError
        onDisk (Disk.truncate temp aligned.toNat)
        update fun self ↦ { self with bytesReceived := aligned.toNat }) fun e ↦
          if e.IsOsError then pure () else throw e
    else pure ()

/-- The part of `interrupt` after its state checks. -/
def preservePart : Method Unit := do
  releaseTempFh
  let actual ← bytesOnDisk
  let w ← get
  if actual = 0 ∧ w.self.bytesReceived = 0 then setState .failed
  else
    update fun self ↦ { self with
      bytesReceived := actual
      nextSeq := if 0 < self.metadata.chunkSize then actual / self.metadata.chunkSize
        else self.nextSeq }
    truncateToChunk actual
    transition .interrupted

/-- `interrupt`. -/
def interrupt : Method Unit := do
  let w ← get
  if w.self.state ∈ [.interrupted, .completed, .failed, .cancelled] then pure ()
  else if w.self.state ≠ .transferring ∧ w.self.state ≠ .accepted then setState .failed
  else if w.self.metadata.fileSize = 0 then setState .failed
  else preservePart

/-- The snapshot that `interrupt_info` returns. -/
structure InterruptInfo where
  transferId : Text
  bytesReceived : ℕ
  resumeChunkIndex : ℤ
  partialSha256 : Text
  senderIdentity : Text
  originalMetadata : Payload

/-- `interrupt_info`.  The metadata stays a payload instead of its JSON text. -/
def interruptInfo (self : IncomingTransfer) : Option InterruptInfo :=
  if self.state ≠ .interrupted then none
  else some {
    transferId := self.metadata.transferId
    bytesReceived := self.bytesReceived
    resumeChunkIndex := self.nextSeq
    partialSha256 := Sha256.hexdigest self.hasher
    senderIdentity := self.metadata.senderIdentity
    originalMetadata := self.metadata.toDict }

/-! ## Resuming -/

/-- The checks of `prepare_resume_request` on the size of the `.part` file. -/
def checkPartial (metadata : TransferMetadata) (diskSize : ℕ)
    (expectedBytes expectedChunkIndex : Option ℤ) : Method Unit := do
  raiseIf (diskSize = 0) (.value (.emptyPartial metadata.transferId))
  raiseIf (metadata.fileSize ≤ 0) (.value (.invalidFileSize metadata.fileSize))
  raiseIf (diskSize > metadata.fileSize) (.value (.partialTooLong diskSize metadata.fileSize))
  raiseIf (metadata.chunkSize ≤ 0) (.value (.invalidChunkSize metadata.chunkSize))
  raiseIf (diskSize % metadata.chunkSize ≠ 0)
    (.value (.partialNotAligned diskSize metadata.chunkSize))
  let index := diskSize / metadata.chunkSize
  raiseIf (∃ b ∈ expectedBytes, b ≠ diskSize)
    (.value (.inconsistentBytes diskSize (expectedBytes.getD 0)))
  raiseIf (∃ i ∈ expectedChunkIndex, i ≠ index)
    (.value (.inconsistentIndex index (expectedChunkIndex.getD 0)))

/-- Read the `.part` file from the disk, or raise what reading it raised. -/
def readPart (temp : Path) : Method Bytes := do
  let (data, error) ← onDisk (Disk.readBlocks temp)
  match error with
  | none => pure data
  | some e => throw (.ofIo e)

/-- `prepare_resume_request`. -/
def prepareResumeRequest (expectedBytes expectedChunkIndex : Option ℤ) :
    Method TransferResumeRequestPayload := do
  let w ← get
  raiseIf (w.self.state ≠ .interrupted) (.runtime (.cannotPrepareResume w.self.state))
  match w.self.tempPath with
  | none => throw .fileNotFound
  | some temp =>
    raiseIf (¬w.disk.Exists temp) .fileNotFound
    let diskSize ← onDisk (Disk.stat temp)
    checkPartial w.self.metadata diskSize expectedBytes expectedChunkIndex
    let data ← readPart temp
    let index := diskSize / w.self.metadata.chunkSize
    update fun self ↦ { self with bytesReceived := diskSize, nextSeq := index }
    ofResult (TransferResumeRequestPayload.build w.self.metadata.transferId diskSize index
      (Sha256.hexdigest data) 1)

/-- The part of `resume` that re-opens the `.part` file and seeds the hasher from it. -/
def reopenPart (chunkIndex : ℤ) (temp : Path) : Method Unit := do
  tryCatch (do
    let fh ← onDisk (Handle.openAppend temp)
    assignTempFh (some fh)) fun e ↦ do
      if e.IsOsError then
        setState .failed
        throw (.transfer .reopenPart)
      else throw e
  let (data, _) ← onDisk (Disk.readBlocks temp)
  update fun self ↦ { self with hasher := data }
  let diskSize ← onDisk (Disk.stat temp)
  update fun self ↦ { self with bytesReceived := diskSize, nextSeq := chunkIndex }
  transition .resuming

/-- `resume`. -/
def resume (chunkIndex : ℤ) : Method Unit := do
  let w ← get
  raiseIf (w.self.state ≠ .interrupted ∧ w.self.state ≠ .resumeRequested)
    (.runtime (.cannotResume w.self.state))
  setState .resumeRequested
  match w.self.tempPath with
  | none => do setState .failed; throw .fileNotFound
  | some temp =>
    if w.disk.Exists temp then reopenPart chunkIndex temp
    else do setState .failed; throw .fileNotFound

end IncomingTransfer

end Ferry
