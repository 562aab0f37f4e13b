import Ferry.Android.State
import Ferry.Android.TrustStore
import Ferry.Service.Pairing

/-!
# Pairing on Android

A session of the Android client with a peer that it does not trust, from the trust decision of
`runSession` on: the user's `acceptPairing` and `rejectPairing` with the coroutines that they launch,
the frames of the peer, and the end of the session loop.  An ACCEPT of the desktop that arrives in the
state PAIRING completes the pairing without a click on the phone.
-/

namespace Ferry

open Exec Text

/-- What `runSession` knows of the peer after the handshake: `remoteDeviceId`, `remoteDeviceName` and
`remoteStaticB64`. -/
structure HandshakePeer where
  deviceId : Text
  deviceName : Text
  staticB64 : Text
  deriving DecidableEq

/-- What a coroutine that a click launched has still to do. -/
inductive Launched
  | acceptance
  | capabilities
  | rejection
  deriving DecidableEq

/-- `FerryControlClient` during one session, as far as the pairing reads and writes it.  `isTrusted` is
the decision of `runSession`; `activeOutput` says whether the field is set, which happens when the loop
starts, `connected` whether the socket is open, `running` whether the loop reads frames and `ended`
whether it is over.  The last two fields record a call of `acceptPairing`, and an ACCEPT that was
processed in the state PAIRING. -/
structure ClientSession where
  state : SessionState
  peer : HandshakePeer
  isTrusted : Bool
  pendingPeer : Option HandshakePeer
  trustStore : FerryTrustStore
  activeOutput : Bool
  connected : Bool
  running : Bool
  ended : Bool
  launched : List Launched
  sent : List SessionMessage
  acceptCalled : Bool
  acceptedByPeer : Bool

namespace ClientSession

/-- The key of the peer is in the trust store. -/
def Trusted (cs : ClientSession) : Prop := cs.trustStore.isKnownPeer cs.peer.staticB64

instance (cs : ClientSession) : Decidable cs.Trusted := inferInstanceAs (Decidable (_ = true))

/-! ## The functions of the client -/

/-- The Kotlin `FerrySession.transition`. -/
def transition (new : SessionState) : Exec KotlinException ClientSession Unit := do
  let cs ← get
  raiseIf (new ∉ cs.state.kotlinTransitions)
    (.illegalArgument (.invalidSessionTransition cs.state new))
  modify fun cs ↦ { cs with state := new }

/-- Write one message to the socket. -/
def writeMessage (message : SessionMessage) : Exec KotlinException ClientSession Unit := do
  let cs ← get
  raiseIf (cs.connected = false) .ioException
  modify fun cs ↦ { cs with sent := cs.sent ++ [message] }

/-- `sendEncrypted`, which sends nothing before the loop has set `activeOutput`. -/
def sendEncrypted (message : SessionMessage) : Exec KotlinException ClientSession Unit := do
  let cs ← get
  if cs.activeOutput then writeMessage message

/-- `persistPendingTrust`. -/
def persistPendingTrust (now : ℤ) : Exec KotlinException ClientSession Unit :=
  modify fun cs ↦
    match cs.pendingPeer with
    | some peer =>
      { cs with trustStore :=
          cs.trustStore.persistTrust now peer.deviceId peer.deviceName peer.staticB64 }
    | none => cs

/-- The end of a pairing. -/
def establish (now : ℤ) : Exec KotlinException ClientSession Unit := do
  transition .pairAccepted
  persistPendingTrust now
  transition .established

/-- What `acceptPairing` does to the session state. -/
def acceptLocally (now : ℤ) : Exec KotlinException ClientSession Unit := do
  let cs ← get
  if cs.state = .pairing then transition .waitingForRemoteDecision
  else if cs.state = .waitingForLocalDecision then establish now

/-- `acceptPairing`. -/
def acceptPairing (now : ℤ) : Exec KotlinException ClientSession Unit := do
  modify fun cs ↦ { cs with acceptCalled := true }
  let cs ← get
  if cs.state = .pairing ∨ cs.state = .waitingForLocalDecision then
    acceptLocally now
    modify fun cs ↦ { cs with launched := cs.launched ++ [.acceptance] }

/-- `rejectPairing`. -/
def rejectPairing : Exec KotlinException ClientSession Unit := do
  modify fun cs ↦ { cs with launched := cs.launched ++ [.rejection] }
  tryCatch (transition .failed) fun _ ↦ pure ()
  modify fun cs ↦ { cs with connected := false }

/-- The announcement of the capabilities after a click. -/
def advertiseCapabilities : Exec KotlinException ClientSession Unit := do
  let cs ← get
  if cs.state = .established then
    tryCatch (sendEncrypted .capabilities) fun _ ↦ pure ()

/-- The next step of a launched coroutine, and what is left of it. -/
def stepLaunched : Launched → Exec KotlinException ClientSession (List Launched)
  | .acceptance => do
    tryCatch (sendEncrypted (.pairDecision true)) fun _ ↦ pure ()
    return [.capabilities]
  | .capabilities => do
    advertiseCapabilities
    return []
  | .rejection => do
    tryCatch (sendEncrypted (.pairDecision false)) fun _ ↦ pure ()
    return []

/-- What an ACCEPT does that arrives in the state PAIRING. -/
def acceptInPairing (now : ℤ) : Exec KotlinException ClientSession Unit := do
  establish now
  tryCatch (sendEncrypted (.pairDecision true)) fun _ ↦ pure ()
  tryCatch (sendEncrypted .capabilities) fun _ ↦ pure ()

/-- What a received ACCEPT does. -/
def acceptRemotely (now : ℤ) : Exec KotlinException ClientSession Unit := do
  let cs ← get
  if cs.state = .pairing then
    modify fun cs ↦ { cs with acceptedByPeer := true }
    acceptInPairing now
  else if cs.state = .waitingForRemoteDecision then establish now
  else if cs.state = .established then
    tryCatch (sendEncrypted (.pairDecision true)) fun _ ↦ pure ()

/-- The branch PAIR_DECISION of `runEncryptedSessionLoop`: whether the loop breaks. -/
def receivePairDecision (now : ℤ) (payload : JsonValue) : Exec KotlinException ClientSession Bool :=
  match payload with
  | .obj fields _ => do
    let decision := Payload.getD fields "decision" .null
    if decision.is "REJECT" then return true
    else if decision.is "ACCEPT" then
      acceptRemotely now
      return false
    else return false
  | _ => throw .json

/-- One round of `runEncryptedSessionLoop` after the frame is decrypted: whether the loop breaks.
Every other message leaves the session state and the trust store as they are, and its branch may
raise. -/
def processFrame (plaintext : Plaintext) (now : ℤ) (raises : Bool) :
    Exec KotlinException ClientSession Bool :=
  match plaintext with
  | .malformed => throw .json
  | .control ⟨some .disconnect, _⟩ => return true
  | .control ⟨some .pairDecision, payload⟩ => receivePairDecision now payload
  | .chunk _ | .control _ => do
    raiseIf (raises = true) .ioException
    return false

/-- The start of the loop, after the branch of `runSession` that pairs has set the pending peer. -/
def startLoop : Exec KotlinException ClientSession Unit :=
  modify fun cs ↦ { cs with
    pendingPeer := if cs.isTrusted then cs.pendingPeer else some cs.peer
    activeOutput := true
    running := true }

/-- The `finally` of `runEncryptedSessionLoop` and of `runSession`. -/
def endLoop : Exec KotlinException ClientSession Unit := do
  modify fun cs ↦ { cs with running := false, ended := true }
  tryCatch (transition .closing) fun _ ↦ pure ()
  tryCatch (transition .disconnected) fun _ ↦ pure ()
  modify fun cs ↦ { cs with connected := false, activeOutput := false }
  let cs ← get
  if cs.state = .established then
    tryCatch (transition .closing) fun _ ↦ pure ()
    tryCatch (transition .disconnected) fun _ ↦ pure ()

/-! ## Runs -/

end ClientSession

/-- What may happen to a session of the client: the start of its loop, the user's clicks, a step of one
of the coroutines that they launched, a frame of the peer, and whatever else ends the loop. -/
inductive ClientEvent
  | startLoop
  | acceptPairing (now : ℤ)
  | rejectPairing
  | stepLaunched (index : ℕ)
  | frame (plaintext : Plaintext) (now : ℤ) (raises : Bool)
  | loopEnd

namespace ClientSession

/-- Run one of the launched coroutines. -/
def runLaunched (cs : ClientSession) (index : ℕ) : ClientSession :=
  match cs.launched[index]? with
  | none => cs
  | some task =>
    match stepLaunched task cs with
    | (.ok rest, cs') => { cs' with launched := cs'.launched.eraseIdx index ++ rest }
    | (.error _, cs') => { cs' with launched := cs'.launched.eraseIdx index }

/-- One event.  A frame before or after the loop does nothing. -/
def step (cs : ClientSession) : ClientEvent → ClientSession
  | .startLoop => if cs.running || cs.ended then cs else (startLoop cs).2
  | .acceptPairing now => (acceptPairing now cs).2
  | .rejectPairing => (rejectPairing cs).2
  | .stepLaunched index => cs.runLaunched index
  | .frame plaintext now raises =>
    if cs.running then
      match processFrame plaintext now raises cs with
      | (.ok false, cs') => cs'
      | (_, cs') => (endLoop cs').2
    else cs
  | .loopEnd => if cs.running then (endLoop cs).2 else cs

def run (cs : ClientSession) (events : List ClientEvent) : ClientSession := events.foldl step cs

/-- A session that has just entered PAIRING with a key that is not in the trust store. -/
structure Fresh (cs : ClientSession) : Prop where
  state : cs.state = .pairing
  untrusted : ¬cs.Trusted
  undecided : cs.acceptCalled = false ∧ cs.acceptedByPeer = false

/-! ## Decisions -/

/-- The user called `acceptPairing`, or an ACCEPT of the peer was processed in the state PAIRING. -/
def Decided (cs : ClientSession) : Prop := cs.acceptCalled = true ∨ cs.acceptedByPeer = true

/-- No decision has had an effect. -/
def Undecided (cs : ClientSession) : Prop :=
  cs.state ∈ [.pairing, .failed, .disconnected] ∧ ¬cs.Trusted

/-- Decisions are not taken back. -/
def KeepsDecision (cs cs' : ClientSession) : Prop := cs.Decided → cs'.Decided

instance : IsPreorder ClientSession KeepsDecision where
  refl := fun _ ↦ id
  trans := fun _ _ _ h h' ↦ h' ∘ h

section Keeps

theorem keeps_quietly {m : Exec KotlinException ClientSession Unit} (hm : Stays KeepsDecision m) :
    Stays KeepsDecision (tryCatch m fun _ ↦ pure ()) :=
  stays_tryCatch hm fun _ ↦ stays_pure _

theorem keeps_transition (new : SessionState) : Stays KeepsDecision (transition new) := by
  apply stays_get_bind
  intro cs
  exact stays_bind (stays_raiseIf _ _) (fun _ ↦ stays_modify fun _ ↦ id) cs

theorem keeps_sendEncrypted (message : SessionMessage) : Stays KeepsDecision (sendEncrypted message) := by
  have hwrite : Stays KeepsDecision (writeMessage message) := by
    apply stays_get_bind
    intro cs
    exact stays_bind (stays_raiseIf _ _) (fun _ ↦ stays_modify fun _ ↦ id) cs
  apply stays_get_bind
  intro cs
  exact stays_ite _ hwrite (stays_pure _) cs

theorem keeps_establish (now : ℤ) : Stays KeepsDecision (establish now) := by
  have hpersist : Stays KeepsDecision (persistPendingTrust now) := by
    apply stays_modify
    intro cs h
    cases hpeer : cs.pendingPeer <;> exact h
  exact stays_bind (keeps_transition _) fun _ ↦ stays_bind hpersist fun _ ↦ keeps_transition _

theorem keeps_acceptLocally (now : ℤ) : Stays KeepsDecision (acceptLocally now) := by
  apply stays_get_bind
  intro cs
  exact stays_ite _ (keeps_transition _) (stays_ite _ (keeps_establish now) (stays_pure _)) cs

theorem keeps_sendQuietly (message : SessionMessage) :
    Stays KeepsDecision (tryCatch (sendEncrypted message) fun _ ↦ pure ()) :=
  keeps_quietly (keeps_sendEncrypted message)

theorem keeps_acceptInPairing (now : ℤ) : Stays KeepsDecision (acceptInPairing now) :=
  stays_bind (keeps_establish now) fun _ ↦
    stays_bind (keeps_sendQuietly _) fun _ ↦ keeps_sendQuietly _

theorem keeps_acceptRemotely (now : ℤ) : Stays KeepsDecision (acceptRemotely now) := by
  apply stays_get_bind
  intro cs
  exact stays_ite _
    (stays_bind (stays_modify fun _ _ ↦ .inr rfl) fun _ ↦ keeps_acceptInPairing now)
    (stays_ite _ (keeps_establish now) (stays_ite _ (keeps_sendQuietly _) (stays_pure _))) cs

theorem keeps_receivePairDecision (now : ℤ) (payload : JsonValue) :
    Stays KeepsDecision (receivePairDecision now payload) := by
  unfold receivePairDecision
  split
  · exact stays_ite _ (stays_pure _) (stays_ite _
      (stays_bind (keeps_acceptRemotely now) fun _ ↦ stays_pure _) (stays_pure _))
  · exact stays_throw _

theorem keeps_processFrame (plaintext : Plaintext) (now : ℤ) (raises : Bool) :
    Stays KeepsDecision (processFrame plaintext now raises) := by
  have hother : Stays KeepsDecision (do
      raiseIf (raises = true) .ioException
      return false : Exec KotlinException ClientSession Bool) :=
    stays_bind (stays_raiseIf _ _) fun _ ↦ stays_pure _
  unfold processFrame
  split
  · exact stays_throw _
  · exact stays_pure _
  · exact keeps_receivePairDecision now _
  · exact hother
  · exact hother

theorem keeps_endLoop : Stays KeepsDecision endLoop := by
  have hclose : ∀ new, Stays KeepsDecision (tryCatch (transition new) fun _ ↦ pure ()) :=
    fun new ↦ keeps_quietly (keeps_transition new)
  refine stays_bind (stays_modify fun _ ↦ id) fun _ ↦ stays_bind (hclose _) fun _ ↦
    stays_bind (hclose _) fun _ ↦ stays_bind (stays_modify fun _ ↦ id) fun _ ↦ ?_
  apply stays_get_bind
  intro cs
  exact stays_ite _ (stays_bind (hclose _) fun _ ↦ hclose _) (stays_pure _) cs

theorem keeps_stepLaunched (task : Launched) : Stays KeepsDecision (stepLaunched task) := by
  cases task with
  | acceptance | rejection => exact stays_bind (keeps_sendQuietly _) fun _ ↦ stays_pure _
  | capabilities =>
    refine stays_bind ?_ fun _ ↦ stays_pure _
    apply stays_get_bind
    intro cs
    exact stays_ite _ (keeps_sendQuietly _) (stays_pure _) cs

theorem keeps_rejectPairing : Stays KeepsDecision rejectPairing :=
  stays_bind (stays_modify fun _ ↦ id) fun _ ↦
    stays_bind (keeps_quietly (keeps_transition _)) fun _ ↦ stays_modify fun _ ↦ id

theorem keeps_acceptPairing (now : ℤ) : Stays KeepsDecision (acceptPairing now) := by
  refine stays_bind (stays_modify fun _ _ ↦ .inl rfl) fun _ ↦ ?_
  apply stays_get_bind
  intro cs
  have haccept : Stays KeepsDecision (do
      acceptLocally now
      modify fun cs ↦ { cs with launched := cs.launched ++ [.acceptance] }) :=
    stays_bind (keeps_acceptLocally now) fun _ ↦ stays_modify fun _ ↦ id
  exact stays_ite _ haccept (stays_pure _) cs

end Keeps

/-! ## One rule for each function -/

section Rules

variable {cs : ClientSession} {Q : Except KotlinException Unit → ClientSession → Prop}

theorem wp_transition {new : SessionState}
    (hok : new ∈ cs.state.kotlinTransitions → Q (.ok ()) { cs with state := new })
    (herror : new ∉ cs.state.kotlinTransitions → ∀ e, Q (.error e) cs) : wp (transition new) Q cs := by
  unfold transition
  rw [wp_get_bind, wp_raiseIf_bind, wp_modify]
  exact ⟨fun hnot ↦ herror hnot _, fun hvalid ↦ hok (not_not.mp hvalid)⟩

/-- A transition whose failure is ignored. -/
theorem wp_transitionQuietly {new : SessionState}
    (hok : new ∈ cs.state.kotlinTransitions → Q (.ok ()) { cs with state := new })
    (herror : new ∉ cs.state.kotlinTransitions → Q (.ok ()) cs) :
    wp (tryCatch (transition new) fun _ ↦ pure ()) Q cs := by
  rw [wp_tryCatch]
  exact wp_transition hok fun hnot _ ↦ herror hnot

theorem wp_sendQuietly {message : SessionMessage} (hQ : ∀ sent, Q (.ok ()) { cs with sent := sent }) :
    wp (tryCatch (sendEncrypted message) fun _ ↦ pure ()) Q cs := by
  unfold sendEncrypted writeMessage
  rw [wp_tryCatch, wp_get_bind, wp_ite, wp_get_bind, wp_raiseIf_bind, wp_modify]
  exact ⟨fun _ ↦ ⟨fun _ ↦ hQ cs.sent, fun _ ↦ hQ _⟩, fun _ ↦ hQ cs.sent⟩

end Rules

/-! ## Nothing happens without a decision -/

section Undecided

variable {cs : ClientSession}

theorem undecided_rejectPairing (h : cs.Undecided) : wp rejectPairing (fun _ t ↦ t.Undecided) cs := by
  have hfailed : SessionState.failed ∈ [SessionState.pairing, .failed, .disconnected] := by decide
  unfold rejectPairing
  rw [wp_modify_bind, wp_bind]
  apply wp_transitionQuietly
  · intro _
    exact ⟨hfailed, h.2⟩
  · intro _
    exact h

theorem undecided_stepLaunched (h : cs.Undecided) (task : Launched) :
    wp (stepLaunched task) (fun _ t ↦ t.Undecided) cs := by
  cases task with
  | acceptance | rejection =>
    unfold stepLaunched
    rw [wp_bind]
    apply wp_sendQuietly
    intro sent
    exact h
  | capabilities =>
    unfold stepLaunched advertiseCapabilities
    rw [wp_bind, wp_get_bind, wp_ite, wp_pure]
    refine ⟨fun hstate ↦ ?_, fun _ ↦ h⟩
    exact absurd h.1 (by simp [hstate])

theorem undecided_acceptRemotely (h : cs.Undecided) (now : ℤ) :
    wp (acceptRemotely now) (fun _ t ↦ t.Decided ∨ t.Undecided) cs := by
  unfold acceptRemotely
  rw [wp_get_bind, wp_ite, wp_modify_bind, wp_ite, wp_ite]
  refine ⟨fun _ ↦ ?_, fun _ ↦ ⟨fun hstate ↦ ?_, fun _ ↦ ⟨fun hstate ↦ ?_, fun _ ↦ .inr h⟩⟩⟩
  · apply wp_mono (keeps_acceptInPairing now _)
    exact fun _ t ht ↦ .inl (ht (.inr rfl))
  · exact absurd h.1 (by simp [hstate])
  · exact absurd h.1 (by simp [hstate])

theorem undecided_processFrame (h : cs.Undecided) (plaintext : Plaintext) (now : ℤ) (raises : Bool) :
    wp (processFrame plaintext now raises) (fun _ t ↦ t.Decided ∨ t.Undecided) cs := by
  unfold processFrame
  split
  · exact .inr h
  · exact .inr h
  · unfold receivePairDecision
    split
    · rw [wp_ite, wp_ite, wp_bind]
      exact ⟨fun _ ↦ .inr h, fun _ ↦ ⟨fun _ ↦ wp_mono (undecided_acceptRemotely h now) fun r t ht ↦ by
        cases r <;> exact ht, fun _ ↦ .inr h⟩⟩
    · exact .inr h
  all_goals
    rw [wp_raiseIf_bind]
    exact ⟨fun _ ↦ .inr h, fun _ ↦ .inr h⟩

theorem undecided_endLoop (h : cs.Undecided) : wp endLoop (fun _ t ↦ t.Undecided) cs := by
  obtain ⟨hstate, huntrusted⟩ := h
  simp only [List.mem_cons, List.not_mem_nil, or_false] at hstate
  unfold endLoop
  rw [wp_modify_bind, wp_bind]
  apply wp_transitionQuietly
  · intro hclosing
    rcases hstate with hstate | hstate | hstate <;> simp [hstate, SessionState.kotlinTransitions] at hclosing
  intro _
  rw [wp_bind]
  have hend : ∀ state ∈ [SessionState.pairing, .failed, .disconnected],
      wp (do
        modify fun cs : ClientSession ↦ { cs with connected := false, activeOutput := false }
        let cs ← get
        if cs.state = .established then
          tryCatch (transition .closing) fun _ ↦ pure ()
          tryCatch (transition .disconnected) fun _ ↦ pure ())
        (fun _ t ↦ t.Undecided) { cs with running := false, ended := true, state := state } := by
    intro state hmem
    rw [wp_modify_bind, wp_get_bind, wp_ite, wp_pure]
    refine ⟨fun hestablished ↦ ?_, fun _ ↦ ⟨hmem, huntrusted⟩⟩
    rw [show state = .established from hestablished] at hmem
    exact absurd hmem (by decide)
  apply wp_transitionQuietly
  · intro _
    exact hend _ (by decide)
  · intro _
    exact hend cs.state (by simpa using hstate)

end Undecided

/-! ## Pairing needs a decision -/

/-- An event keeps the decision, or nothing has happened yet. -/
theorem decided_or_undecided_step {cs : ClientSession} (h : cs.Decided ∨ cs.Undecided)
    (event : ClientEvent) : (cs.step event).Decided ∨ (cs.step event).Undecided := by
  cases event with
  | startLoop =>
    rw [step]
    split
    · exact h
    · exact h
  | acceptPairing now =>
    have hkeeps : wp (acceptPairing now) (fun _ t ↦ KeepsDecision { cs with acceptCalled := true } t) cs :=
      keeps_acceptPairing now { cs with acceptCalled := true }
    exact .inl (hkeeps (.inl rfl))
  | rejectPairing =>
    exact h.imp (fun h ↦ keeps_rejectPairing cs h) fun h ↦ undecided_rejectPairing h
  | stepLaunched index =>
    rw [step, runLaunched]
    split
    · exact h
    · next task htask =>
      have hkeeps : KeepsDecision cs (stepLaunched task cs).2 := keeps_stepLaunched task cs
      have hundecided : cs.Undecided → (stepLaunched task cs).2.Undecided :=
        fun h ↦ undecided_stepLaunched h task
      rcases hrun : stepLaunched task cs with ⟨r, t⟩
      rw [hrun] at hkeeps hundecided
      cases r <;> exact h.imp hkeeps hundecided
  | frame plaintext now raises =>
    rw [step]
    split
    · have hkeeps : KeepsDecision cs (processFrame plaintext now raises cs).2 :=
        keeps_processFrame plaintext now raises cs
      have hundecided : cs.Undecided → (processFrame plaintext now raises cs).2.Decided ∨
          (processFrame plaintext now raises cs).2.Undecided :=
        fun h ↦ undecided_processFrame h plaintext now raises
      rcases hrun : processFrame plaintext now raises cs with ⟨r, t⟩
      rw [hrun] at hkeeps hundecided
      have ht : t.Decided ∨ t.Undecided := h.elim (fun h ↦ .inl (hkeeps h)) hundecided
      have hended : (endLoop t).2.Decided ∨ (endLoop t).2.Undecided :=
        ht.imp (fun h ↦ keeps_endLoop t h) fun h ↦ undecided_endLoop h
      match r with
      | .ok false => exact ht
      | .ok true => exact hended
      | .error e => exact hended
    · exact h
  | loopEnd =>
    rw [step]
    split
    · exact h.imp (fun h ↦ keeps_endLoop cs h) fun h ↦ undecided_endLoop h
    · exact h

theorem decided_or_undecided_run {cs : ClientSession} (h : cs.Decided ∨ cs.Undecided)
    (events : List ClientEvent) : (cs.run events).Decided ∨ (cs.run events).Undecided := by
  induction events generalizing cs with
  | nil => exact h
  | cons event events ih => exact ih (decided_or_undecided_step h event)

/-- The session is ESTABLISHED, and the key of the peer stored, only if the user called
`acceptPairing` or an ACCEPT of the peer was processed in the state PAIRING. -/
theorem pairing_needs_decision (cs : ClientSession) (hcs : cs.Fresh) (events : List ClientEvent)
    (h : (cs.run events).Trusted ∨ (cs.run events).state = .established) :
    (cs.run events).acceptCalled = true ∨ (cs.run events).acceptedByPeer = true := by
  have hfresh : cs.Undecided := ⟨by simp [hcs.state], hcs.untrusted⟩
  apply (decided_or_undecided_run (.inr hfresh) events).resolve_right
  intro hundecided
  rcases h with h | h
  · exact hundecided.2 h
  · exact absurd hundecided.1 (by simp [h])

/-- A phone that has just asked its user about a desktop. -/
def sampleClient : ClientSession where
  state := .pairing
  peer := ⟨lit "laptop", lit "Laptop", sampleKey 1⟩
  isTrusted := false
  pendingPeer := none
  trustStore := []
  activeOutput := false
  connected := true
  running := false
  ended := false
  launched := []
  sent := []
  acceptCalled := false
  acceptedByPeer := false

/-- The desktop's ACCEPT is the first thing that happens. -/
def desktopAccepts : List ClientEvent :=
  [.startLoop,
    .frame (.control ⟨some .pairDecision, .obj [(lit "decision", .str (lit "ACCEPT"))] []⟩) 100 false]

theorem fresh_sampleClient : sampleClient.Fresh where
  state := rfl
  untrusted := by decide +kernel
  undecided := ⟨rfl, rfl⟩

theorem pairing_needs_decision_sample :
    (sampleClient.run desktopAccepts).acceptCalled = true ∨
      (sampleClient.run desktopAccepts).acceptedByPeer = true :=
  pairing_needs_decision sampleClient fresh_sampleClient desktopAccepts (.inr (by decide +kernel))

/-- The session becomes ESTABLISHED without a click of the user. -/
theorem paired_without_click : ¬∀ cs : ClientSession, cs.Fresh → ∀ events,
    (cs.run events).Trusted ∨ (cs.run events).state = .established →
      (cs.run events).acceptCalled = true := by
  intro h
  have hclick := h sampleClient fresh_sampleClient desktopAccepts (.inr (by decide +kernel))
  exact absurd hclick (by decide +kernel)

end ClientSession

end Ferry
