import Ferry.Transfer.FrameCodec
import Ferry.Transfer.ResumePayload

/-!
# Outgoing transfers

`OutgoingTransfer`: the metadata of a source file and the generator that yields its chunks as encoded
frames.  A generator is its local variables between two frames; the caller may cancel, and others may
change the source file, whenever it is suspended.
-/

namespace Ferry

open Exec Text

/-- `OutgoingTransfer`. -/
structure OutgoingTransfer where
  transferId : Text
  sourcePath : Path
  batchId : Text
  relativePath : Text
  state : TransferState
  bytesSent : ℕ
  cancelled : Bool

/-- The disk of the source file and the object that a method runs on. -/
structure Sender where
  disk : Disk
  self : OutgoingTransfer

/-- A method of `OutgoingTransfer`. -/
abbrev Sending (α : Type) : Type := Exec PyError Sender α

namespace OutgoingTransfer

/-- `__init__`. -/
def new (sourcePath : Path) (transferId batchId relativePath : Text) : OutgoingTransfer where
  transferId := transferId
  sourcePath := sourcePath
  batchId := batchId
  relativePath := relativePath
  state := .idle
  bytesSent := 0
  cancelled := false

def onDisk {α : Type} (m : Exec IoError Disk α) : Sending α :=
  zoom Sender.disk (fun disk w ↦ { w with disk }) (mapError .ofIo m)

def update (f : OutgoingTransfer → OutgoingTransfer) : Sending Unit :=
  modify fun w ↦ { w with self := f w.self }

def setState (state : TransferState) : Sending Unit := update fun self ↦ { self with state }

/-- `self._state = _transfer_transition(self._state, new)`. -/
def transition (new : TransferState) : Sending Unit := do
  let w ← get
  let state ← ofResult (transferTransition w.self.state new)
  setState state

/-- `cancel`. -/
def cancel : Sending Unit := update fun self ↦ { self with cancelled := true }

/-! ## Metadata -/

/-- `_sha256_file`. -/
def sha256File (p : Path) : Sending Text := do
  let (data, error) ← onDisk (Disk.readBlocks p)
  match error with
  | none => pure (Sha256.hexdigest data)
  | some e => throw (.ofIo e)

/-- `build_metadata`, at the time `now`, for a guessed MIME type. -/
def buildMetadata (senderIdentity mimeType : Text) (now : ℤ) : Sending TransferMetadata := do
  let w ← get
  let fileSize ← onDisk (Disk.stat w.self.sourcePath)
  let sha256 ← sha256File w.self.sourcePath
  pure {
    transferId := w.self.transferId
    fileName := w.self.sourcePath.name
    fileSize := fileSize
    mimeType := mimeType
    sha256 := sha256
    chunkSize := chunkSizeDefault
    chunkCount := TransferMetadata.expectedChunks fileSize chunkSizeDefault
    senderIdentity := senderIdentity
    createdAt := now
    protocolVersion := 1
    batchId := w.self.batchId
    relativePath := w.self.relativePath }

/-! ## Streaming -/

/-- The local variables of `_stream_chunks_internal` between two frames: the number of the next frame
and the position of the open file. -/
structure ChunkStream where
  seq : ℕ
  position : ℕ
  deriving DecidableEq

/-- Set FAILED and raise a `TransferError` in the place of an `OSError`. -/
def failOnOsError {α : Type} (m : Sending α) (message : TransferMessage) : Sending α :=
  tryCatch m fun e ↦ do
    if e.IsOsError then
      setState .failed
      throw (.transfer message)
    else throw e

/-- `_stream_chunks_internal` up to its loop, for `stream_chunks_from`.  An offset that the platform
cannot represent is a `ValueError`. -/
def start (resumeChunkIndex : ℤ) : Sending ChunkStream := do
  raiseIf (resumeChunkIndex < 0) (.value (.negativeResumeIndex resumeChunkIndex))
  transition .transferring
  let w ← get
  let offset := resumeChunkIndex.toNat * chunkSizeDefault
  failOnOsError (onDisk (Disk.openRead w.self.sourcePath)) .openSource
  if 0 < offset then
    raiseIf (2 ^ 63 ≤ offset) (.value .offsetTooLarge)
    failOnOsError (onDisk Disk.seek) .seekSource
    pure ⟨resumeChunkIndex.toNat, offset⟩
  else pure ⟨resumeChunkIndex.toNat, offset⟩

/-- One turn of the loop of `_stream_chunks_internal`: the frame that it yields, or nothing at the
end of the file or after a cancel. -/
def advance (stream : ChunkStream) : Sending (Option (Bytes × ChunkStream)) := do
  let w ← get
  if w.self.cancelled then
    setState .cancelling
    pure none
  else
    let chunk ← failOnOsError
      (onDisk (Disk.readAt w.self.sourcePath stream.position chunkSizeDefault)) .readSource
    if chunk = [] then
      transition .completed
      pure none
    else
      let frame ← ofResult (encodeChunkFrame w.self.transferId stream.seq chunk)
      update fun self ↦ { self with bytesSent := self.bytesSent + chunk.length }
      pure (some (frame, ⟨stream.seq + 1, stream.position + chunk.length⟩))

/-- At most `limit` frames of a started generator. -/
def collect : ℕ → ChunkStream → Sending (List Bytes)
  | 0, _ => pure []
  | limit + 1, stream => do
    let next ← advance stream
    match next with
    | none => pure []
    | some (frame, stream) => do
      let rest ← collect limit stream
      pure (frame :: rest)

/-- The first `limit` frames of `stream_chunks_from(resume_chunk_index)`; the index 0 gives
`stream_chunks()`. -/
def streamChunksFrom (limit : ℕ) (resumeChunkIndex : ℤ) : Sending (List Bytes) := do
  let stream ← start resumeChunkIndex
  collect limit stream

end OutgoingTransfer

/-- `_compute_prefix_sha256`: nothing when the file is shorter, or cannot be read. -/
def computePrefixSha256 (p : Path) (lengthBytes : ℤ) : Exec IoError Disk (Option Text) := do
  let (data, error) ← Disk.readBlocks p
  if error.isSome ∨ (data.length : ℤ) < lengthBytes then pure none
  else pure (some (Sha256.hexdigest (data.take lengthBytes.toNat)))

end Ferry
