import Ferry.Android.Metadata
import Ferry.Base.Disk

/-!
# Receiving a file on Android

`FerryTransferReceiver` with the operations of `java.io.File` on a disk whose calls can fail.  The
digest is kept beside the staging file as the bytes it was fed: `begin` keeps a staging file that is
already there and starts an empty digest, a chunk goes to both, `resume` feeds a new digest from the
file, and `finalise` asks the digest only.
-/

namespace Ferry

open Exec

/-! ## Files -/

namespace JavaFile

open Disk

/-- `File(dir, name)`, for a name without a slash. -/
def child (dir : Path) (name : Text) : Path := dir ++ [name]

/-- `file.mkdirs()`, which does not throw. -/
def mkdirs (p : Path) : Exec IoError Disk Unit := tryCatch (mkdir p) fun _ ↦ pure ()

/-- `file.createNewFile()`: what is at the path stays as it is. -/
def createNewFile (p : Path) : Exec IoError Disk Unit := do
  let outcome ← perform .openFile
  let disk ← get
  raiseIf outcome.fails .osError
  if disk.nodes p ≠ none then pure ()
  else
    raiseIf (disk.nodes p.parent ≠ some .directory) .osError
    modify fun d ↦ d.put p (some (.file []))

/-- `file.appendBytes(data)`.  A write that fails may have written some of the bytes. -/
def appendBytes (p : Path) (data : Bytes) : Exec IoError Disk Unit := do
  let opened ← perform .openFile
  let disk ← get
  raiseIf opened.fails .fileNotFound
  raiseIf (disk.nodes p.parent ≠ some .directory) .fileNotFound
  raiseIf (disk.nodes p = some .directory) .fileNotFound
  let written ← perform .write
  let closed ← perform .close
  modify fun d ↦ (d.put p (some (.file (d.content p)))).append p
    (if written.fails then data.take written.reach else data)
  raiseIf (written.fails ∨ closed.fails) .osError

/-- What `file.exists()` is about to answer: no, when the path cannot be examined. -/
def reports (disk : Disk) (p : Path) : Bool := !(disk.outcome .stat).fails && disk.nodes p ≠ none

/-- `file.exists()`. -/
def fileExists (p : Path) : Exec IoError Disk Bool := do
  let disk ← get
  let _ ← perform .stat
  return reports disk p

/-- `file.length()`, which is 0 when the file cannot be examined. -/
def length (p : Path) : Exec IoError Disk ℕ := tryCatch (stat p) fun _ ↦ pure 0

/-- `file.delete()`.  A directory that is not empty is a failure that the environment has in store. -/
def delete (p : Path) : Exec IoError Disk Bool := do
  let outcome ← perform .unlink
  let disk ← get
  if outcome.fails ∨ disk.nodes p = none then return false
  else
    modify fun d ↦ d.put p none
    return true

/-- `src.renameTo(dst)`: an existing file is replaced, except by a directory. -/
def renameTo (src dst : Path) : Exec IoError Disk Bool := do
  let disk ← get
  if disk.nodes src = some .directory ∧ disk.nodes dst ≠ none then return false
  else
    tryCatch
      (do
        rename src dst
        return true)
      fun _ ↦ return false

end JavaFile

/-! ## The receiver -/

/-- The reasons that `failureCause` gives. -/
inductive FailureCause
  | io (e : KotlinException)
  | partialLost (fileName : Text)
  deriving DecidableEq

/-- `FerryTransferReceiver`, where `digest` is what was fed to the `MessageDigest`. -/
structure FerryTransferReceiver where
  metadata : Kotlin.TransferMetadata
  stagingDir : Path
  state : TransferState
  digest : Bytes
  bytesReceived : ℤ
  nextSeq : ℤ
  failureCause : Option FailureCause
  deriving DecidableEq

/-- The disk and the object that a method runs on. -/
structure ReceiverWorld where
  disk : Disk
  self : FerryTransferReceiver

def KotlinException.ofIo : IoError → KotlinException
  | .fileNotFound => fileNotFound
  | .osError | .closedFile => ioException

namespace FerryTransferReceiver

/-- A method of `FerryTransferReceiver`. -/
abbrev Method (α : Type) : Type := Exec KotlinException ReceiverWorld α

/-- A new receiver. -/
def new (metadata : Kotlin.TransferMetadata) (stagingDir : Path) : FerryTransferReceiver where
  metadata
  stagingDir
  state := .idle
  digest := []
  bytesReceived := 0
  nextSeq := 0
  failureCause := none

/-- `Long` and `Int` arithmetic wrap around. -/
def toInt64 (n : ℤ) : ℤ := n.bmod (2 ^ 64)

theorem toInt64_of_lt {n : ℤ} (hnonneg : 0 ≤ n) (hlt : n < 2 ^ 63) : toInt64 n = n := by
  unfold toInt64
  apply Int.bmod_eq_of_le
  · omega
  · omega

/-- The staging file of a transfer. -/
def stagingFile (metadata : Kotlin.TransferMetadata) (stagingDir : Path) : Path :=
  JavaFile.child stagingDir (metadata.transferId ++ Text.lit ".part")

def tempFile (self : FerryTransferReceiver) : Path := stagingFile self.metadata self.stagingDir

/-- The file that `finalise` renames to. -/
def finalFile (self : FerryTransferReceiver) (disk : Disk) : Path :=
  let finalFile := JavaFile.child self.stagingDir self.metadata.fileName
  if JavaFile.reports disk finalFile then
    JavaFile.child self.stagingDir
      (self.metadata.transferId.take 8 ++ Text.lit "_" ++ self.metadata.fileName)
  else finalFile

def onDisk {α : Type} (m : Exec IoError Disk α) : Method α :=
  zoom ReceiverWorld.disk (fun disk w ↦ { w with disk }) (mapError .ofIo m)

def update (f : FerryTransferReceiver → FerryTransferReceiver) : Method Unit :=
  modify fun w ↦ { w with self := f w.self }

def setState (state : TransferState) : Method Unit := update fun self ↦ { self with state }

/-- `cleanup`. -/
def cleanup : Method Unit := do
  let w ← get
  let found ← onDisk (JavaFile.fileExists w.self.tempFile)
  if found then
    let _ ← onDisk (JavaFile.delete w.self.tempFile)

/-- `begin`. -/
def begin : Method Unit := do
  let w ← get
  raiseIf (w.self.state ≠ .idle) (.illegalState (.beginInState w.self.state))
  onDisk (JavaFile.mkdirs w.self.stagingDir)
  tryCatch (onDisk (JavaFile.createNewFile w.self.tempFile)) fun e ↦ do
    update fun self ↦ { self with state := .failed, failureCause := some (.io e) }
    throw e
  setState .transferring

/-- `receiveChunk`. -/
def receiveChunk (transferId : Text) (seq : ℤ) (data : Bytes) : Method Unit := do
  let w ← get
  raiseIf (w.self.state ≠ .transferring ∧ w.self.state ≠ .resuming)
    (.illegalState (.chunkInState w.self.state))
  raiseIf (transferId ≠ w.self.metadata.transferId)
    (.illegalArgument (.chunkTransferId w.self.metadata.transferId transferId))
  raiseIf (seq ≠ w.self.nextSeq) (.illegalArgument (.chunkOutOfOrder w.self.nextSeq seq))
  raiseIf (w.self.metadata.chunkSize < data.length)
    (.illegalArgument (.chunkPayload data.length w.self.metadata.chunkSize))
  tryCatch (onDisk (JavaFile.appendBytes w.self.tempFile data)) fun e ↦ do
    cleanup
    update fun self ↦ { self with state := .failed, failureCause := some (.io e) }
    throw e
  update fun self ↦ { self with
    digest := self.digest ++ data
    bytesReceived := toInt64 (self.bytesReceived + data.length)
    nextSeq := Kotlin.TransferMetadata.toInt32 (self.nextSeq + 1) }

/-- The end of a `finalise` that does not place the file. -/
def refuse : Method Bool := do
  cleanup
  setState .failed
  return false

/-- The rename of `finalise`. -/
def place : Method Bool := do
  let w ← get
  let finalFile := w.self.finalFile w.disk
  let _ ← onDisk (JavaFile.fileExists finalFile)
  onDisk (JavaFile.renameTo w.self.tempFile finalFile)

/-- `finalise`.  Reading the digest resets it. -/
def finalise : Method Bool := do
  let w ← get
  update fun self ↦ { self with digest := [] }
  if Sha256.hexdigest w.self.digest ≠ Text.asciiLower w.self.metadata.sha256 then refuse
  else
    let renamed ← place
    if renamed then
      setState .completed
      return true
    else refuse

/-- `interrupt`: the offset, or -1. -/
def interrupt : Method ℤ := do
  let w ← get
  if w.self.state ≠ .transferring ∧ w.self.state ≠ .resuming then return -1
  else
    setState .interrupted
    return w.self.bytesReceived

/-- `resume`, whose second parameter is only compared for a log line.  Bytes that cannot be read are
missing from the new digest. -/
def resume (chunkIndex : ℤ) : Method Unit := do
  let w ← get
  raiseIf (w.self.state ≠ .interrupted ∧ w.self.state ≠ .resumeRequested)
    (.illegalState (.resumeInState w.self.state))
  let found ← onDisk (JavaFile.fileExists w.self.tempFile)
  if found then
    let diskSize ← onDisk (JavaFile.length w.self.tempFile)
    let (data, _) ← onDisk (Disk.readBlocks w.self.tempFile)
    update fun self ↦ { self with
      digest := data
      bytesReceived := diskSize
      nextSeq := chunkIndex
      state := .resuming }
  else
    update fun self ↦ { self with
      state := .failed
      failureCause := some (.partialLost (self.tempFile.getLastD [])) }
    throw .fileNotFound

/-- `cancel`. -/
def cancel : Method Unit := do
  cleanup
  setState .cancelled

end FerryTransferReceiver

end Ferry
