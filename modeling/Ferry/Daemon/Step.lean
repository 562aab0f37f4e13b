import Ferry.Daemon.Sending

/-!
# The event loop

One segment after the other, in whatever order frames arrive, the user calls, awaits return and timers
fire.  An event that the state does not allow does nothing.
-/

namespace Ferry

open Exec Text

namespace Daemon

/-! ## Running a segment -/

/-- Leave a suspended coroutine behind. -/
def suspend (s : Daemon) (await : Await) : Daemon :=
  { s with next := s.next + 1, tasks := s.tasks.set s.next await }

/-- The state of the session loop after a segment. -/
def setLoop (s : Daemon) (ps : ℕ) (loop : LoopState) : Daemon :=
  { s with sessions := Function.update s.sessions ps { s.sessions ps with loop } }

/-- Run a segment of the session loop. -/
def runLoop (ps : ℕ) (m : Segment LoopFlow) (s : Daemon) : Daemon :=
  match m s with
  | (.ok .next, t) => t.setLoop ps .reading
  | (.ok (.await await), t) => t.setLoop ps (.handling await)
  | (.ok .stop, t) | (.error _, t) => (endLoop ps t).2

/-- Run a segment of another coroutine. -/
def runCall (m : Call) (s : Daemon) : Daemon :=
  match m s with
  | (.ok (some await), t) => t.suspend await
  | (_, t) => t

/-! ## Events -/

/-- What may happen next: a connection whose handshake is complete, a frame, the end of a stream, the
return of an await, a timer, or a call of the user. -/
inductive Event
  | connect (remoteAddr : Text) (remote : RemotePeer) (paired : Bool) (sendFaults : List (Option ℕ))
  | frame (ps : ℕ) (plaintext : Plaintext) (now : Clock) (uuid : Text)
  | loopEnds (ps : ℕ)
  | loopResumes (ps : ℕ) (failed : Bool)
  | resume (task : ℕ) (failed : Bool) (now : Clock)
  | expire (timer : ℕ)
  | stall (now : ℤ)
  | acceptPairing (remoteAddr : Text) (now : ℤ) (uuid : Text)
  | rejectPairing (remoteAddr : Text)
  | acceptTransfer (remoteAddr transferId : Text)
  | rejectTransfer (remoteAddr transferId : Text)
  | acceptBatch (remoteAddr batchId : Text)
  | rejectBatch (remoteAddr batchId : Text)
  | cancelTransfer (transferId reason : Text) (now : ℤ)
  | discard (transferId : Text)
  | requestResume (remoteAddr transferId : Text) (now : ℤ)
  | sendFile (remoteAddr : Text) (item : BatchItem) (now : ℤ)
  | sendBatch (remoteAddr : Text) (files : List BatchItem) (totalBytes : ℤ) (batchName batchId : Text)
      (now : ℤ)

/-- The session of a completed handshake. -/
def newSession (remoteAddr : Text) (remote : RemotePeer) (paired : Bool)
    (sendFaults : List (Option ℕ)) : PeerSession where
  state := if paired then .established else .pairing
  remoteAddr := remoteAddr
  remote := remote
  loop := .reading
  closed := false
  sendFaults := sendFaults
  sent := []
  transferEvents := ∅
  resultEvents := ∅

/-- The end of `_run_handshake` before the session loop. -/
def connect (s : Daemon) (session : PeerSession) : Daemon :=
  { s with
    next := s.next + 1
    sessions := Function.update s.sessions s.next session
    activeSessions := s.activeSessions.set session.remoteAddr s.next }

/-- A coroutine can be resumed: a wait that has not timed out returns when it was signalled. -/
def isReady (s : Daemon) (failed : Bool) : Await → Bool
  | .resumeResponse _ _ _ _ waiter | .file _ (.response waiter) | .batch _ (.response waiter) =>
    failed || s.responses waiter ≠ []
  | .file _ (.result waiter) => failed || s.results waiter ≠ []
  | _ => true

/-- A coroutine after its await. -/
def resumeCall (failed : Bool) (now : Clock) : Await → Call
  | .acceptanceTimeout timer => rejectionSent timer
  | .rejectPairing ps => disconnectSession ps
  | .cancelBatch batchId batch size remaining => broadcastCancel now.wall batchId batch size remaining
  | .cancelIncoming transferId object ps => do
    let s ← get
    incomingCancelled transferId object (s.sessions ps).deviceId now.wall
  | .resumeRequest transferId object ps resumeChunkIndex => do
    drained failed
    let waiter ← waitForTransferResponse ps transferId
    pure (some (.resumeResponse transferId object ps resumeChunkIndex waiter))
  | .resumeResponse transferId object ps resumeChunkIndex waiter => do
    let response ← if failed then pure .reject else transferResponse ps transferId waiter
    resumeAnswered transferId object resumeChunkIndex response
  | .file send await => resumeSend send failed now.wall await
  | .batch b await => resumeBatch b failed now.wall await

/-- One event. -/
def step (s : Daemon) : Event → Daemon
  | .connect remoteAddr remote paired sendFaults =>
    s.connect (newSession remoteAddr remote paired sendFaults)
  | .frame ps plaintext now uuid =>
    match (s.sessions ps).loop with
    | .reading => runLoop ps (processFrame ps plaintext now uuid) s
    | _ => s
  | .loopEnds ps =>
    match (s.sessions ps).loop with
    | .reading => (endLoop ps s).2
    | _ => s
  | .loopResumes ps failed =>
    match (s.sessions ps).loop with
    | .handling await => runLoop ps (resumeHandler ps failed await) s
    | _ => s
  | .resume task failed now =>
    match s.tasks.get task with
    | none => s
    | some await =>
      if s.isReady failed await then
        runCall (resumeCall failed now await) { s with tasks := s.tasks.pop task }
      else s
  | .expire timer =>
    match s.ledger.timers.get timer with
    | none => s
    | some sleeping =>
      runCall (acceptanceTimeout sleeping)
        { s with ledger := { s.ledger with timers := s.ledger.timers.pop timer } }
  | .stall now => (monitorStallTimeouts now s).2
  | .acceptPairing remoteAddr now uuid => runCall (acceptPairing remoteAddr now uuid) s
  | .rejectPairing remoteAddr => runCall (rejectPairing remoteAddr) s
  | .acceptTransfer remoteAddr transferId => runCall (acceptTransfer remoteAddr transferId) s
  | .rejectTransfer remoteAddr transferId => runCall (rejectTransfer remoteAddr transferId) s
  | .acceptBatch remoteAddr batchId => runCall (acceptBatch remoteAddr batchId) s
  | .rejectBatch remoteAddr batchId => runCall (rejectBatch remoteAddr batchId) s
  | .cancelTransfer transferId reason now => runCall (cancelTransfer transferId reason now) s
  | .discard transferId => runCall (discardInterruptedTransfer transferId) s
  | .requestResume remoteAddr transferId now => runCall (requestResume remoteAddr transferId now) s
  | .sendFile remoteAddr item now => runCall (startFile remoteAddr item now) s
  | .sendBatch remoteAddr files totalBytes batchName batchId now =>
    runCall (sendBatch remoteAddr files totalBytes batchName batchId now) s

def run (s : Daemon) (events : List Event) : Daemon := events.foldl step s

/-- The daemon has just started: nothing is registered, and no coroutine runs. -/
structure Started (s : Daemon) : Prop where
  ledger : s.ledger = .empty
  outgoing : s.activeOutgoingTransfers = ∅
  batches : s.activeBatches = ∅
  active : s.activeSessions = ∅
  tasks : s.tasks = ∅
  loops : ∀ ps, (s.sessions ps).loop = .ended
  recorded : s.recordedTransferIds = []
  completions : s.completions = []
  delivered : s.delivered = []

/-! ## Runs -/

/-- Every step of a run meets a condition. -/
def Always (good : Daemon → Event → Prop) (s : Daemon) : List Event → Prop
  | [] => True
  | event :: events => good s event ∧ Always good (s.step event) events

instance decidableAlways (good : Daemon → Event → Prop) [∀ s event, Decidable (good s event)]
    (s : Daemon) : ∀ events, Decidable (Always good s events)
  | [] => isTrue trivial
  | event :: events =>
    have := decidableAlways good (s.step event) events
    inferInstanceAs (Decidable (_ ∧ _))

/-- What every good step preserves holds after every good run. -/
theorem run_induction {good : Daemon → Event → Prop} {Inv : Daemon → Prop}
    (hstep : ∀ s event, Inv s → good s event → Inv (s.step event)) {s : Daemon} {events : List Event}
    (h : Inv s) (hgood : Always good s events) : Inv (s.run events) := by
  induction events generalizing s with
  | nil => exact h
  | cons event events ih => exact ih (hstep s event h hgood.1) hgood.2

end Daemon

end Ferry
