import Ferry.Base.Disk
import Ferry.Base.Json
import Ferry.Session.State

/-!
# Transfer states and exceptions

The state machine of one file transfer, and the exceptions of the service.  An exception carries the
values that the source interpolates in its message.
-/

namespace Ferry

/-- `TransferState`. -/
inductive TransferState
  | idle
  | requested
  | accepted
  | transferring
  | cancelling
  | completed
  | failed
  | cancelled
  | interrupted
  | resumeRequested
  | resuming
  deriving DecidableEq

namespace TransferState

/-- `TransferState.VALID_TRANSITIONS`. -/
def validTransitions : TransferState → List TransferState
  | idle => [requested, accepted, transferring, failed, cancelled]
  | requested => [accepted, failed, cancelled]
  | accepted => [transferring, failed, cancelled]
  | transferring => [cancelling, completed, failed, interrupted]
  | cancelling => [cancelled, failed]
  | completed => []
  | failed => []
  | cancelled => []
  | interrupted => [resumeRequested, failed]
  | resumeRequested => [resuming, failed]
  | resuming => [completed, interrupted, failed]

end TransferState

/-- The messages of the `ValueError`s. -/
inductive ValueMessage
  | badlyFormedUuid
  | uuidRange
  | invalidInt
  | unencodable
  | emptyFileName (rawName : Text)
  | pathTraversal (relativePath : Text)
  | negativeFileSize (fileSize : ℤ)
  | fileSizeLimit (fileSize : ℤ)
  | chunkSizeRange (chunkSize : ℤ)
  | chunkCountMismatch (chunkCount expectedChunks : ℤ)
  | badSha256 (sha256 : Text)
  | noSafeDestination (fileName : Text)
  | payloadTooLong (length : ℕ)
  | frameTooShort (length : ℕ)
  | badMagic (magic : Bytes)
  | payloadLenRange (payloadLen : ℕ)
  | frameTruncated (need have_ : ℕ)
  | transferIdMismatch (expected got : Text)
  | outOfOrderChunk (expected got : ℤ)
  | chunkTooLong (length : ℕ) (chunkSize : ℤ)
  | closedFile
  | emptyPartial (transferId : Text)
  | invalidFileSize (fileSize : ℤ)
  | partialTooLong (diskSize : ℕ) (fileSize : ℤ)
  | invalidChunkSize (chunkSize : ℤ)
  | partialNotAligned (diskSize : ℕ) (chunkSize : ℤ)
  | inconsistentBytes (diskSize : ℕ) (expected : ℤ)
  | inconsistentIndex (diskIndex expected : ℤ)
  | negativeResumeIndex (index : ℤ)
  | offsetTooLarge
  | missingField (name : Text)
  | invalidTransferId (transferId : Text)
  | offsetRange (offset : ℤ)
  | indexRange (index : ℤ)
  | badProtocolVersion (version : ℤ)
  | badPartialSha256 (sha256 : Text)
  | offsetMismatch (offset index chunkSize : ℤ)
  | badJson
  | missingNotificationField (name : Text)
  | emptyFerryId
  | emptyPackage
  deriving DecidableEq

/-- The messages of the `RuntimeError`s. -/
inductive RuntimeMessage
  | invalidTransition (current new : TransferState)
  | cannotReceive (state : TransferState)
  | cannotPrepareResume (state : TransferState)
  | cannotResume (state : TransferState)
  | invalidSessionTransition (current new : SessionState)
  | cannotSend (state : SessionState)
  | noActiveSession (remoteAddr : Text)
  | notEstablished (remoteAddr : Text) (state : SessionState)
  | dictChangedSize
  deriving DecidableEq

/-- The messages of the `TransferError`s. -/
inductive TransferMessage
  | openStaging
  | diskWrite
  | reopenPart
  | openSource
  | seekSource
  | readSource
  deriving DecidableEq

/-- The exceptions that the service raises. -/
inductive PyError
  | osError
  | fileNotFound
  | value (message : ValueMessage)
  | key (name : Text)
  | type
  | overflow
  | attribute
  | runtime (message : RuntimeMessage)
  | assertion
  | structPack
  | security (fileName : Text)
  | transfer (message : TransferMessage)
  | database
  deriving DecidableEq

namespace PyError

/-- Caught by `except OSError`. -/
def IsOsError (e : PyError) : Prop := e = osError ∨ e = fileNotFound

instance (e : PyError) : Decidable e.IsOsError := inferInstanceAs (Decidable (_ ∨ _))

/-- Caught by `except ValueError`. -/
def isValueError : PyError → Bool
  | value _ => true
  | _ => false

/-- Caught by `except (ValueError, KeyError)`. -/
def isValueOrKeyError : PyError → Bool
  | value _ | key _ => true
  | _ => false

/-- Caught by `except (ValueError, RuntimeError)`. -/
def isValueOrRuntimeError : PyError → Bool
  | value _ | runtime _ => true
  | _ => false

/-- Caught by `except TransferError`. -/
def isTransferError : PyError → Bool
  | transfer _ => true
  | _ => false

def ofIo : IoError → PyError
  | .osError => osError
  | .fileNotFound => fileNotFound
  | .closedFile => value .closedFile

def ofInt : IntError → PyError
  | .valueError => value .invalidInt
  | .typeError => type
  | .overflowError => overflow

end PyError

/-- `_transfer_transition`. -/
def transferTransition (current new : TransferState) : Except PyError TransferState :=
  if new ∈ current.validTransitions then .ok new
  else .error (.runtime (.invalidTransition current new))

theorem transferTransition_eq_ok {current new state : TransferState} :
    transferTransition current new = .ok state ↔ new ∈ current.validTransitions ∧ state = new := by
  unfold transferTransition
  split
  · next h => simp [h, eq_comm]
  · next h => simp [h]

/-- Only a transfer whose chunks flow can complete. -/
theorem mem_validTransitions_completed {state : TransferState}
    (h : TransferState.completed ∈ state.validTransitions) :
    state = .transferring ∨ state = .resuming := by
  cases state <;> simp_all [TransferState.validTransitions]

end Ferry
