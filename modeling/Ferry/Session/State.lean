import Mathlib.Tactic.Common

/-!
# Session states

The state machine of the session with one peer.
-/

namespace Ferry

/-- `SessionState`. -/
inductive SessionState
  | disconnected
  | connecting
  | handshaking
  | pairing
  | waitingForLocalDecision
  | waitingForRemoteDecision
  | pairAccepted
  | authenticating
  | established
  | closing
  | failed
  deriving DecidableEq

namespace SessionState

/-- The table `valid` of `transition`. -/
def validTransitions : SessionState → List SessionState
  | disconnected => [connecting]
  | connecting => [handshaking, failed, closing]
  | handshaking => [authenticating, failed, closing]
  | authenticating => [established, pairing, failed, closing]
  | pairing => [waitingForLocalDecision, waitingForRemoteDecision, failed, closing]
  | waitingForLocalDecision => [waitingForRemoteDecision, pairAccepted, failed, closing]
  | waitingForRemoteDecision => [waitingForLocalDecision, pairAccepted, failed, closing]
  | pairAccepted => [established, failed, closing]
  | established => [closing, failed]
  | closing => [disconnected]
  | failed => [disconnected]

/-- The states in which `send_encrypted` refuses to send. -/
def refusesToSend : List SessionState := [disconnected, connecting, handshaking, failed, closing]

end SessionState

end Ferry
