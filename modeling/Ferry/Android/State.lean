import Ferry.Base.Sha256
import Ferry.Base.Text
import Ferry.Session.State
import Ferry.Transfer.State

/-!
# States and exceptions of the Android client

The transition table of the Kotlin `FerrySession`, which is not the one of the desktop, and the
exceptions that the client raises with the messages of its own checks.
-/

namespace Ferry

namespace SessionState

/-- The table `valid` of the Kotlin `transition`. -/
def kotlinTransitions : SessionState → List SessionState
  | disconnected => [connecting]
  | connecting => [handshaking, failed]
  | handshaking => [authenticating, failed]
  | authenticating => [established, pairing, failed]
  | pairing => [waitingForLocalDecision, waitingForRemoteDecision, pairAccepted, failed]
  | waitingForLocalDecision => [waitingForRemoteDecision, pairAccepted, failed]
  | waitingForRemoteDecision => [waitingForLocalDecision, pairAccepted, failed]
  | pairAccepted => [established, failed]
  | established => [closing, failed]
  | closing => [disconnected]
  | failed => [disconnected]

end SessionState

/-- The messages of `require` and `check`, with the values that they quote. -/
inductive CheckMessage
  | invalidSessionTransition (current new : SessionState)
  | emptyTransferId
  | invalidUuid (name : Text)
  | emptyFileName (rawName : Text)
  | negativeFileSize (fileSize : ℤ)
  | fileSizeLimit (fileSize : ℤ)
  | chunkSizeRange (chunkSize : ℤ)
  | chunkCount (chunkCount expectedChunks : ℤ)
  | invalidSha256 (sha256 : Text)
  | beginInState (state : TransferState)
  | chunkInState (state : TransferState)
  | chunkTransferId (expected actual : Text)
  | chunkOutOfOrder (expected actual : ℤ)
  | chunkPayload (size chunkSize : ℤ)
  | resumeInState (state : TransferState)
  | chunkTooShort (size : ℤ)
  | chunkMagic (magic : Bytes)
  | chunkPayloadLen (payloadLen : ℤ)
  | chunkTruncated (need size : ℤ)
  | copyRange (fromIndex toIndex : ℤ)
  deriving DecidableEq

/-- The exceptions of the client. -/
inductive KotlinException
  | illegalArgument (message : CheckMessage)
  | illegalState (message : CheckMessage)
  | ioException
  | fileNotFound
  | json
  deriving DecidableEq

end Ferry
