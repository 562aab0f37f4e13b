import Ferry.Service.Message
import Ferry.Service.Trust

/-!
# Pairing on the desktop

A session with a peer whose key is not in `trusted_devices`, from the state PAIRING on: the user's
`accept_pairing` and `reject_pairing`, the frames of the peer, and the end of the session loop.  The
session is ESTABLISHED, and the key stored, only when both sides accepted.  When both did, it is,
provided that the trust could be written when the user's click came second.
-/

namespace Ferry

open Exec Text

/-- The messages of the pairing that the service sends. -/
inductive SessionMessage
  | pairDecision (accept : Bool)
  | capabilities
  deriving DecidableEq

/-- A `PeerSession`, as far as the pairing reads and writes it.  `running` says that the session loop
reads frames, `active` that `_active_sessions` resolves to the session, and `rejecting` counts the
calls of `reject_pairing` that have not yet disconnected.  The last four fields record the decisions
that were made. -/
structure PairingSession where
  state : SessionState
  remote : RemotePeer
  db : Database
  running : Bool
  active : Bool
  rejecting : ℕ
  sent : List SessionMessage
  localAccepted : Bool
  remoteAccepted : Bool
  localRejected : Bool
  remoteRejected : Bool

/-- Equality with a text literal. -/
def JsonValue.is (value : JsonValue) (literal : String) : Bool :=
  match value with
  | .str t => t = lit literal
  | _ => false

namespace PairingSession

/-- The key of the peer is stored. -/
def Trusted (ps : PairingSession) : Prop :=
  (ps.db.devices.byPublicKey ps.remote.staticPubB64).isSome

instance (ps : PairingSession) : Decidable ps.Trusted := inferInstanceAs (Decidable (_ = true))

/-! ## The functions of the service -/

/-- `FerrySession.transition`. -/
def transition (new : SessionState) : Exec PyError PairingSession Unit := do
  let ps ← get
  raiseIf (new ∉ ps.state.validTransitions) (.runtime (.invalidSessionTransition ps.state new))
  modify fun ps ↦ { ps with state := new }

/-- `send_encrypted`.  The frame is written before `drain` may raise, and nothing that depends on the
`drain` follows. -/
def sendEncrypted (message : SessionMessage) : Exec PyError PairingSession Unit := do
  let ps ← get
  raiseIf (ps.state ∈ SessionState.refusesToSend) (.runtime (.cannotSend ps.state))
  modify fun ps ↦ { ps with sent := ps.sent ++ [message] }

/-- `_persist_trust`. -/
def persist (now : ℤ) (uuid : Text) : Exec PyError PairingSession Unit := do
  let ps ← get
  zoom PairingSession.db (fun db ps ↦ { ps with db := db }) (persistTrust now uuid ps.remote)

/-- The end of a pairing, which both sides have accepted. -/
def establish (now : ℤ) (uuid : Text) : Exec PyError PairingSession Unit := do
  transition .pairAccepted
  persist now uuid
  transition .established

/-- What `accept_pairing` does to the session state. -/
def acceptLocally (now : ℤ) (uuid : Text) : Exec PyError PairingSession Unit := do
  let ps ← get
  if ps.state = .pairing then transition .waitingForRemoteDecision
  else if ps.state = .waitingForLocalDecision then establish now uuid

/-- `accept_pairing`, when its address resolves to the session. -/
def acceptPairing (now : ℤ) (uuid : Text) : Exec PyError PairingSession Unit := do
  modify fun ps ↦ { ps with localAccepted := true }
  acceptLocally now uuid
  sendEncrypted (.pairDecision true)

/-- `reject_pairing` up to its `await`. -/
def rejectPairing : Exec PyError PairingSession Unit := do
  modify fun ps ↦ { ps with localRejected := true, rejecting := ps.rejecting + 1 }
  tryCatch (sendEncrypted (.pairDecision false)) fun _ ↦ pure ()

/-- `_disconnect_session`, at the end of `reject_pairing`. -/
def disconnectSession : Exec PyError PairingSession Unit := do
  let ps ← get
  if ps.state ∉ [.disconnected, .failed] then
    tryCatch (transition .failed) fun _ ↦ pure ()

/-- What a received ACCEPT does. -/
def acceptRemotely (now : ℤ) (uuid : Text) : Exec PyError PairingSession Unit := do
  let ps ← get
  if ps.state = .pairing then transition .waitingForLocalDecision
  else if ps.state = .waitingForRemoteDecision then
    establish now uuid
    tryCatch (sendEncrypted .capabilities) fun _ ↦ pure ()

/-- The branch PAIR_DECISION of `_run_session_loop`: whether the loop breaks. -/
def receivePairDecision (now : ℤ) (uuid : Text) (payload : JsonValue) :
    Exec PyError PairingSession Bool := do
  let payload ← ofResult payload.fields
  let decision := payload.getD "decision" .null
  if decision.is "REJECT" then
    modify fun ps ↦ { ps with remoteRejected := true }
    return true
  else if decision.is "ACCEPT" then
    modify fun ps ↦ { ps with remoteAccepted := true }
    acceptRemotely now uuid
    return false
  else return false

/-- One round of `_run_session_loop` after the frame is decrypted: whether the loop breaks.  Every
other message leaves the session state and the trusted devices as they are, and its branch may
raise. -/
def processFrame (plaintext : Plaintext) (now : ℤ) (uuid : Text) (raises : Bool) :
    Exec PyError PairingSession Bool :=
  match plaintext with
  | .malformed => throw (.value .badJson)
  | .control ⟨some .disconnect, _⟩ => return true
  | .control ⟨some .pairDecision, payload⟩ => receivePairDecision now uuid payload
  | .chunk _ | .control _ => do
    raiseIf (raises = true) .osError
    return false

/-- The `finally` of `_run_session_loop` and the end of `_run_handshake`. -/
def endLoop (cleanupRaises : Bool) : Exec PyError PairingSession Unit := do
  modify fun ps ↦ { ps with running := false }
  tryCatch
    (do
      raiseIf (cleanupRaises = true) .osError
      transition .closing
      transition .disconnected)
    fun _ ↦ do
      let ps ← get
      if ps.state ∉ [.established, .closing, .failed, .disconnected] then
        tryCatch (transition .failed) fun _ ↦ pure ()
  modify fun ps ↦ { ps with active := false }
  let ps ← get
  if ps.state ∉ [.disconnected, .failed] then
    tryCatch
      (do
        transition .closing
        transition .disconnected)
      fun _ ↦ pure ()

/-! ## Runs -/

end PairingSession

/-- What may happen to a session: the user's clicks and the end of a `reject_pairing`, a frame of the
peer, and whatever else ends the loop. -/
inductive PairingEvent
  | acceptPairing (now : ℤ) (uuid : Text)
  | rejectPairing
  | disconnectSession
  | frame (plaintext : Plaintext) (now : ℤ) (uuid : Text) (raises cleanupRaises : Bool)
  | loopEnd (cleanupRaises : Bool)

namespace PairingSession

/-- One event.  A call that does not resolve to the session and a frame after the loop do nothing. -/
def step (ps : PairingSession) : PairingEvent → PairingSession
  | .acceptPairing now uuid => if ps.active then (acceptPairing now uuid ps).2 else ps
  | .rejectPairing => if ps.active then (rejectPairing ps).2 else ps
  | .disconnectSession =>
    if 0 < ps.rejecting then (disconnectSession { ps with rejecting := ps.rejecting - 1 }).2 else ps
  | .frame plaintext now uuid raises cleanupRaises =>
    if ps.running then
      match processFrame plaintext now uuid raises ps with
      | (.ok false, ps') => ps'
      | (_, ps') => (endLoop cleanupRaises ps').2
    else ps
  | .loopEnd cleanupRaises => if ps.running then (endLoop cleanupRaises ps).2 else ps

def run (ps : PairingSession) (events : List PairingEvent) : PairingSession := events.foldl step ps

/-- A session that has just entered PAIRING with a key that is not stored. -/
structure Fresh (ps : PairingSession) : Prop where
  state : ps.state = .pairing
  running : ps.running = true
  active : ps.active = true
  untrusted : ¬ps.Trusted
  rejecting : ps.rejecting = 0
  undecided : ps.localAccepted = false ∧ ps.remoteAccepted = false ∧ ps.localRejected = false ∧
    ps.remoteRejected = false

/-! ## One rule for each function -/

section Rules

variable {ps : PairingSession} {Q : Except PyError Unit → PairingSession → Prop}

theorem wp_transition {new : SessionState} (h : new ∈ ps.state.validTransitions)
    (hQ : Q (.ok ()) { ps with state := new }) : wp (transition new) Q ps := by
  unfold transition
  rw [wp_get_bind, wp_raiseIf_bind, wp_modify]
  exact ⟨fun hnot ↦ absurd h hnot, fun _ ↦ hQ⟩

theorem wp_sendEncrypted {message : SessionMessage} (hQ : ∀ r sent, Q r { ps with sent := sent }) :
    wp (sendEncrypted message) Q ps := by
  unfold sendEncrypted
  rw [wp_get_bind, wp_raiseIf_bind, wp_modify]
  exact ⟨fun _ ↦ hQ _ ps.sent, fun _ ↦ hQ _ _⟩

theorem wp_sendQuietly {message : SessionMessage} (hQ : ∀ sent, Q (.ok ()) { ps with sent := sent }) :
    wp (tryCatch (sendEncrypted message) fun _ ↦ pure ()) Q ps := by
  rw [wp_tryCatch]
  apply wp_sendEncrypted
  intro r sent
  cases r with
  | ok u => exact hQ sent
  | error e => exact hQ sent

/-- A completed pairing leaves the session ESTABLISHED and the key stored; one that raises leaves it
PAIR_ACCEPTED. -/
theorem wp_establish {now : ℤ} {uuid : Text} (h : .pairAccepted ∈ ps.state.validTransitions)
    (hok : ∀ db, (db.devices.byPublicKey ps.remote.staticPubB64).isSome →
      Q (.ok ()) { ps with state := .established, db := db })
    (herror : ∀ e db, ¬Persistable uuid ps.remote ps.db → db.devices = ps.db.devices →
      Q (.error e) { ps with state := .pairAccepted, db := db }) :
    wp (establish now uuid) Q ps := by
  unfold establish persist
  rw [wp_bind]
  apply wp_transition h
  rw [wp_bind, wp_get_bind, wp_zoom]
  apply wp_mono (wp_persistTrust now uuid ps.remote)
  intro r db hwritten
  rcases hwritten with ⟨rfl, hstored⟩ | ⟨e, rfl, hnot, hsame⟩
  · apply wp_transition List.mem_cons_self
    exact hok db hstored
  · exact herror e db hnot hsame

theorem wp_acceptLocally {now : ℤ} {uuid : Text}
    (hpairing : ps.state = .pairing → Q (.ok ()) { ps with state := .waitingForRemoteDecision })
    (hok : ps.state = .waitingForLocalDecision → ∀ db,
      (db.devices.byPublicKey ps.remote.staticPubB64).isSome →
        Q (.ok ()) { ps with state := .established, db := db })
    (herror : ps.state = .waitingForLocalDecision → ∀ e db, ¬Persistable uuid ps.remote ps.db →
      db.devices = ps.db.devices → Q (.error e) { ps with state := .pairAccepted, db := db })
    (helse : ps.state ≠ .pairing → ps.state ≠ .waitingForLocalDecision → Q (.ok ()) ps) :
    wp (acceptLocally now uuid) Q ps := by
  unfold acceptLocally
  rw [wp_get_bind, wp_ite, wp_ite, wp_pure]
  refine ⟨fun hstate ↦ ?_, fun hstate ↦ ⟨fun hstate' ↦ ?_, fun hstate' ↦ helse hstate hstate'⟩⟩
  · apply wp_transition
    · rw [hstate]
      decide
    · exact hpairing hstate
  · apply wp_establish
    · rw [hstate']
      decide
    · exact hok hstate'
    · exact herror hstate'

theorem wp_acceptRemotely {now : ℤ} {uuid : Text}
    (hpairing : ps.state = .pairing → Q (.ok ()) { ps with state := .waitingForLocalDecision })
    (hok : ps.state = .waitingForRemoteDecision → ∀ db sent,
      (db.devices.byPublicKey ps.remote.staticPubB64).isSome →
        Q (.ok ()) { ps with state := .established, db := db, sent := sent })
    (herror : ps.state = .waitingForRemoteDecision → ∀ e db, ¬Persistable uuid ps.remote ps.db →
      db.devices = ps.db.devices → Q (.error e) { ps with state := .pairAccepted, db := db })
    (helse : ps.state ≠ .pairing → ps.state ≠ .waitingForRemoteDecision → Q (.ok ()) ps) :
    wp (acceptRemotely now uuid) Q ps := by
  unfold acceptRemotely
  rw [wp_get_bind, wp_ite, wp_ite, wp_pure]
  refine ⟨fun hstate ↦ ?_, fun hstate ↦ ⟨fun hstate' ↦ ?_, fun hstate' ↦ helse hstate hstate'⟩⟩
  · apply wp_transition
    · rw [hstate]
      decide
    · exact hpairing hstate
  · rw [wp_bind]
    apply wp_establish
    · rw [hstate']
      decide
    · intro db hstored
      apply wp_sendQuietly
      intro sent
      exact hok hstate' db sent hstored
    · exact herror hstate'

end Rules

/-! ## The invariant -/

/-- What has been decided in each state. -/
def Phase (ps : PairingSession) : Prop :=
  match ps.state with
  | .pairing => ps.localAccepted = false ∧ ps.remoteAccepted = false ∧ ¬ps.Trusted
  | .waitingForLocalDecision => ps.localAccepted = false ∧ ps.remoteAccepted = true ∧ ¬ps.Trusted
  | .waitingForRemoteDecision => ps.localAccepted = true ∧ ps.remoteAccepted = false ∧ ¬ps.Trusted
  | .pairAccepted => ps.localAccepted = true ∧ ps.remoteAccepted = true
  | .established => ps.localAccepted = true ∧ ps.remoteAccepted = true ∧ ps.Trusted
  | .failed | .disconnected => ps.Trusted → ps.localAccepted = true ∧ ps.remoteAccepted = true
  | _ => False

/-- What holds after every event. -/
structure Inv (ps : PairingSession) : Prop where
  phase : ps.Phase
  stopped : ps.running = false →
    (ps.state = .disconnected ∨ ps.state = .failed) ∧ ps.active = false
  disconnected : ps.state = .disconnected → ps.running = false
  failed : ps.running = true → ps.state = .failed → ps.localRejected = true
  rejecting : 0 < ps.rejecting → ps.localRejected = true
  rejected : ps.remoteRejected = true → ps.running = false

theorem inv_fresh {ps : PairingSession} (h : ps.Fresh) : ps.Inv where
  phase := by
    rw [Phase, h.state]
    exact ⟨h.undecided.1, h.undecided.2.1, h.untrusted⟩
  stopped hrunning := absurd h.running (by simp [hrunning])
  disconnected hstate := absurd hstate (by simp [h.state])
  failed _ hstate := absurd hstate (by simp [h.state])
  rejecting hpos := absurd hpos (by simp [h.rejecting])
  rejected hremote := absurd hremote (by simp [h.undecided.2.2.2])

/-- Whatever the phase, a stored key and an ESTABLISHED session mean that both sides accepted. -/
theorem Phase.accepted {ps : PairingSession} (h : ps.Phase) (hdone : ps.state = .established ∨ ps.Trusted) :
    ps.localAccepted = true ∧ ps.remoteAccepted = true := by
  unfold Phase at h
  cases hstate : ps.state <;> simp only [hstate] at h hdone <;> simp_all

/-! ## The invariant is kept -/

section Steps

variable {ps : PairingSession}

/-- The invariant of a session whose loop runs. -/
theorem Inv.ofRunning (hrunning : ps.running = true) (hphase : ps.Phase)
    (hdisconnected : ps.state ≠ .disconnected) (hfailed : ps.state = .failed → ps.localRejected = true)
    (hrejecting : 0 < ps.rejecting → ps.localRejected = true) (hrejected : ps.remoteRejected = false) :
    ps.Inv where
  phase := hphase
  stopped h := absurd h (by simp [hrunning])
  disconnected h := absurd h hdisconnected
  failed _ := hfailed
  rejecting := hrejecting
  rejected h := absurd h (by simp [hrejected])

theorem Inv.remoteRejected_eq (h : ps.Inv) (hrunning : ps.running = true) : ps.remoteRejected = false := by
  cases hrejected : ps.remoteRejected with
  | false => rfl
  | true => exact absurd (h.rejected hrejected) (by simp [hrunning])

theorem Inv.not_disconnected (h : ps.Inv) (hrunning : ps.running = true) : ps.state ≠ .disconnected :=
  fun hstate ↦ absurd (h.disconnected hstate) (by simp [hrunning])

/-- What is sent and which flags of acceptance rise does not matter to the invariant, as long as the
phase is right. -/
theorem Inv.move (h : ps.Inv) (hrunning : ps.running = true) {state : SessionState} {db : Database}
    {sent : List SessionMessage} {la ra : Bool}
    (hphase : Phase { ps with
      state := state, db := db, sent := sent, localAccepted := la, remoteAccepted := ra })
    (hdisconnected : state ≠ .disconnected) (hfailed : state = .failed → ps.state = .failed) :
    Inv { ps with
      state := state, db := db, sent := sent, localAccepted := la, remoteAccepted := ra } :=
  .ofRunning hrunning hphase hdisconnected (fun hstate ↦ h.failed hrunning (hfailed hstate))
    h.rejecting (h.remoteRejected_eq hrunning)

/-- The state in which a session is left when the trust could not be written. -/
def Stuck (ps : PairingSession) : Prop := ps.state = .pairAccepted

/-- A click keeps the invariant, and leaves the session stuck only when the trust cannot be
written. -/
theorem inv_acceptPairing (h : ps.Inv) (hrunning : ps.running = true) (now : ℤ) (uuid : Text) :
    wp (acceptPairing now uuid) (fun _ t ↦ t.Inv ∧ (t.Stuck → ps.Stuck ∨
      ps.state = .waitingForLocalDecision ∧ ¬Persistable uuid ps.remote ps.db)) ps := by
  have hphase := h.phase
  unfold acceptPairing
  rw [wp_modify_bind, wp_bind]
  apply wp_acceptLocally
  · intro hstate
    apply wp_sendEncrypted
    intro r sent
    refine ⟨h.move hrunning ?_ (by simp) (by simp), fun hstuck ↦ by simp [Stuck] at hstuck⟩
    simp_all [Phase, Trusted]
  · intro hstate db hstored
    apply wp_sendEncrypted
    intro r sent
    refine ⟨h.move hrunning ?_ (by simp) (by simp), fun hstuck ↦ by simp [Stuck] at hstuck⟩
    simp_all [Phase, Trusted]
  · intro hstate e db hnot hsame
    refine ⟨h.move hrunning ?_ (by simp) (by simp), fun _ ↦ .inr ⟨hstate, hnot⟩⟩
    simp_all [Phase, Trusted]
  · intro hpairing hlocal
    apply wp_sendEncrypted
    intro r sent
    refine ⟨h.move hrunning ?_ (h.not_disconnected hrunning) id, fun hstuck ↦ .inl hstuck⟩
    cases hstate : ps.state <;> simp_all [Phase, Trusted]

/-- What holds after a round of the loop: the invariant when the loop goes on, and what the end of
the loop needs otherwise. -/
def RoundPost (ps : PairingSession) (r : Except PyError Bool) (t : PairingSession) : Prop :=
  (r = .ok false → t.Inv ∧ (t.Stuck → ps.Stuck)) ∧ t.Phase ∧ (0 < t.rejecting → t.localRejected = true)

theorem Inv.roundPost {r : Except PyError Bool} {t : PairingSession} (h : t.Inv)
    (hstuck : r = .ok false → t.Stuck → ps.Stuck) : RoundPost ps r t :=
  ⟨fun hr ↦ ⟨h, hstuck hr⟩, h.phase, h.rejecting⟩

theorem inv_receivePairDecision (h : ps.Inv) (hrunning : ps.running = true) (now : ℤ) (uuid : Text)
    (payload : JsonValue) : wp (receivePairDecision now uuid payload) (RoundPost ps) ps := by
  have hphase := h.phase
  unfold receivePairDecision
  rw [wp_ofResult_bind]
  refine ⟨fun e _ ↦ h.roundPost fun _ ↦ id, fun fields _ ↦ ?_⟩
  rw [wp_ite, wp_ite]
  refine ⟨fun _ ↦ ?_, fun _ ↦ ⟨fun _ ↦ ?_, fun _ ↦ h.roundPost fun _ ↦ id⟩⟩
  · rw [wp_modify_bind, wp_pure]
    exact ⟨fun hr ↦ by simp at hr, hphase, h.rejecting⟩
  · rw [wp_modify_bind, wp_bind]
    apply wp_acceptRemotely
    · intro hstate
      apply Inv.roundPost (h.move hrunning _ (by simp) (by simp)) (fun _ hstuck ↦ by simp [Stuck] at hstuck)
      simp_all [Phase, Trusted]
    · intro hstate db sent hstored
      apply Inv.roundPost (h.move hrunning _ (by simp) (by simp)) (fun _ hstuck ↦ by simp [Stuck] at hstuck)
      simp_all [Phase, Trusted]
    · intro hstate e db _ hsame
      apply Inv.roundPost (h.move hrunning _ (by simp) (by simp)) (fun hr ↦ by simp at hr)
      simp_all [Phase, Trusted]
    · intro hpairing hremote
      apply Inv.roundPost (h.move hrunning _ (h.not_disconnected hrunning) id) (fun _ ↦ id)
      cases hstate : ps.state <;> simp_all [Phase, Trusted]

theorem inv_processFrame (h : ps.Inv) (hrunning : ps.running = true) (plaintext : Plaintext) (now : ℤ)
    (uuid : Text) (raises : Bool) :
    wp (processFrame plaintext now uuid raises) (RoundPost ps) ps := by
  unfold processFrame
  split
  · exact h.roundPost fun _ ↦ id
  · exact h.roundPost fun _ ↦ id
  · exact inv_receivePairDecision h hrunning now uuid _
  all_goals
    rw [wp_raiseIf_bind]
    exact ⟨fun _ ↦ h.roundPost fun _ ↦ id, fun _ ↦ h.roundPost fun _ ↦ id⟩

/-- The end of the loop leaves the session DISCONNECTED or FAILED, and everything else as it was. -/
theorem wp_endLoop (hphase : ps.Phase) (cleanupRaises : Bool) :
    wp (endLoop cleanupRaises) (fun _ t ↦ (t.state = .disconnected ∨ t.state = .failed) ∧
      t = { ps with state := t.state, running := false, active := false }) ps := by
  obtain ⟨state, remote, db, running, active, rejecting, sent, la, ra, lr, rr⟩ := ps
  cases state with
  | connecting | handshaking | authenticating | closing => exact hphase.elim
  | disconnected | pairing | waitingForLocalDecision | waitingForRemoteDecision | pairAccepted
  | established =>
    cases cleanupRaises <;> first | exact ⟨.inl rfl, rfl⟩ | exact ⟨.inr rfl, rfl⟩
  | failed => cases cleanupRaises <;> exact ⟨.inr rfl, rfl⟩

theorem inv_endLoop (hphase : ps.Phase) (hrejecting : 0 < ps.rejecting → ps.localRejected = true)
    (cleanupRaises : Bool) : wp (endLoop cleanupRaises) (fun _ t ↦ t.Inv) ps := by
  apply wp_mono (wp_endLoop hphase cleanupRaises)
  rintro r t ⟨hstate, ht⟩
  have haccepted : t.Trusted → t.localAccepted = true ∧ t.remoteAccepted = true := by
    rw [ht]
    exact fun htrusted ↦ hphase.accepted (.inr htrusted)
  have hrunning : t.running = false := by rw [ht]
  have hactive : t.active = false := by rw [ht]
  have hlocal : 0 < t.rejecting → t.localRejected = true := by
    rw [ht]
    exact hrejecting
  constructor
  · rcases hstate with hstate | hstate <;>
      rw [Phase, hstate] <;> exact haccepted
  · exact fun _ ↦ ⟨hstate, hactive⟩
  · exact fun _ ↦ hrunning
  · exact fun h ↦ absurd h (by simp [hrunning])
  · exact hlocal
  · exact fun _ ↦ hrunning

theorem inv_rejectPairing (h : ps.Inv) (hrunning : ps.running = true) :
    wp rejectPairing (fun _ t ↦ t.Inv ∧ (t.Stuck → ps.Stuck)) ps := by
  unfold rejectPairing
  rw [wp_modify_bind]
  apply wp_sendQuietly
  intro sent
  refine ⟨.ofRunning hrunning h.phase (h.not_disconnected hrunning) (fun _ ↦ rfl) (fun _ ↦ rfl)
    (h.remoteRejected_eq hrunning), id⟩

theorem inv_disconnectSession (h : ps.Inv) (hrejecting : 0 < ps.rejecting) :
    wp disconnectSession (fun _ t ↦ t.Inv ∧ t.running = ps.running ∧ (t.Stuck → ps.Stuck))
      { ps with rejecting := ps.rejecting - 1 } := by
  have hlocal := h.rejecting hrejecting
  have hsame : Inv { ps with rejecting := ps.rejecting - 1 } :=
    ⟨h.phase, h.stopped, h.disconnected, h.failed, fun _ ↦ hlocal, h.rejected⟩
  unfold disconnectSession
  rw [wp_get_bind, wp_ite, wp_pure]
  refine ⟨fun hstate ↦ ?_, fun _ ↦ ⟨hsame, rfl, id⟩⟩
  have hrunning : ps.running = true := by
    cases hrunning : ps.running with
    | true => rfl
    | false =>
      rcases (h.stopped hrunning).1 with hstopped | hstopped <;> simp [hstopped] at hstate
  rw [wp_tryCatch]
  apply wp_transition
  · have hphase := h.phase
    cases hcase : ps.state <;> simp_all [Phase, SessionState.validTransitions]
  · refine ⟨.ofRunning hrunning ?_ (by simp) (fun _ ↦ hlocal) (fun _ ↦ hlocal)
      (h.remoteRejected_eq hrunning), rfl, fun hstuck ↦ by simp [Stuck] at hstuck⟩
    exact fun htrusted ↦ h.phase.accepted (.inr htrusted)

end Steps

/-! ## Runs -/

/-- The condition on an event: a click that completes the pairing can write the trust. -/
def CanPersist (ps : PairingSession) : PairingEvent → Prop
  | .acceptPairing _ uuid => ps.state = .waitingForLocalDecision → Persistable uuid ps.remote ps.db
  | _ => True

/-- Every event of a run meets the condition in the state that it starts in. -/
def RunCanPersist : PairingSession → List PairingEvent → Prop
  | _, [] => True
  | ps, event :: events => ps.CanPersist event ∧ RunCanPersist (ps.step event) events

section Run

variable {ps : PairingSession}

/-- The end of the loop keeps the invariant and stops the session. -/
theorem inv_ended (hphase : ps.Phase) (hrejecting : 0 < ps.rejecting → ps.localRejected = true)
    (cleanupRaises : Bool) {P : Prop} : (endLoop cleanupRaises ps).2.Inv ∧
      ((endLoop cleanupRaises ps).2.running = true → (endLoop cleanupRaises ps).2.Stuck → P) := by
  have hended : wp (endLoop cleanupRaises) (fun _ t ↦ (t.state = .disconnected ∨ t.state = .failed) ∧
      t = { ps with state := t.state, running := false, active := false }) ps :=
    wp_endLoop hphase cleanupRaises
  refine ⟨inv_endLoop hphase hrejecting cleanupRaises, fun hrunning _ ↦ ?_⟩
  rw [hended.2] at hrunning
  exact absurd hrunning Bool.false_ne_true

/-- An event keeps the invariant; a running session gets stuck only by a click that cannot write the
trust. -/
theorem inv_step (h : ps.Inv) (event : PairingEvent) : (ps.step event).Inv ∧
    ((ps.step event).running = true → (ps.step event).Stuck →
      ps.running = true ∧ ps.Stuck ∨ ¬ps.CanPersist event) := by
  have hsame : ps.Inv ∧ (ps.running = true → ps.Stuck →
      ps.running = true ∧ ps.Stuck ∨ ¬ps.CanPersist event) :=
    ⟨h, fun hrunning hstuck ↦ .inl ⟨hrunning, hstuck⟩⟩
  have hrunning_of_active : ps.active = true → ps.running = true := by
    intro hactive
    cases hrunning : ps.running with
    | true => rfl
    | false => exact absurd (h.stopped hrunning).2 (by simp [hactive])
  cases event with
  | acceptPairing now uuid =>
    rw [step]
    split
    · next hactive =>
      have hrunning := hrunning_of_active hactive
      obtain ⟨hinv, hstuck⟩ : wp _ _ ps := inv_acceptPairing h hrunning now uuid
      refine ⟨hinv, fun _ hs ↦ ?_⟩
      rcases hstuck hs with hold | ⟨hstate, hnot⟩
      · exact .inl ⟨hrunning, hold⟩
      · exact .inr fun hcan ↦ hnot (hcan hstate)
    · exact hsame
  | rejectPairing =>
    rw [step]
    split
    · next hactive =>
      have hrunning := hrunning_of_active hactive
      obtain ⟨hinv, hstuck⟩ : wp _ _ ps := inv_rejectPairing h hrunning
      exact ⟨hinv, fun _ hs ↦ .inl ⟨hrunning, hstuck hs⟩⟩
    · exact hsame
  | disconnectSession =>
    rw [step]
    split
    · next hpos =>
      obtain ⟨hinv, hsamerunning, hstuck⟩ : wp _ _ _ := inv_disconnectSession h hpos
      exact ⟨hinv, fun hrunning hs ↦ .inl ⟨hsamerunning.symm.trans hrunning, hstuck hs⟩⟩
    · exact hsame
  | frame plaintext now uuid raises cleanupRaises =>
    rw [step]
    split
    · next hrunning =>
      obtain ⟨hgoes, hphase, hrejecting⟩ : wp _ _ ps :=
        inv_processFrame h hrunning plaintext now uuid raises
      rcases hround : processFrame plaintext now uuid raises ps with ⟨r, t⟩
      rw [hround] at hgoes hphase hrejecting
      have hended : ∀ P : Prop, (endLoop cleanupRaises t).2.Inv ∧
          ((endLoop cleanupRaises t).2.running = true → (endLoop cleanupRaises t).2.Stuck → P) :=
        fun P ↦ inv_ended hphase hrejecting cleanupRaises
      match r with
      | .ok false =>
        obtain ⟨hinv, hstuck⟩ := hgoes rfl
        exact ⟨hinv, fun _ hs ↦ .inl ⟨hrunning, hstuck hs⟩⟩
      | .ok true => exact hended _
      | .error e => exact hended _
    · exact hsame
  | loopEnd cleanupRaises =>
    rw [step]
    split
    · exact inv_ended h.phase h.rejecting cleanupRaises
    · exact hsame

theorem inv_run (h : ps.Inv) (events : List PairingEvent) : (ps.run events).Inv := by
  induction events generalizing ps with
  | nil => exact h
  | cons event events ih => exact ih (inv_step h event).1

/-- Under the condition a running session is never stuck. -/
theorem not_stuck_run (h : ps.Inv) (hstuck : ps.running = true → ¬ps.Stuck) {events : List PairingEvent}
    (hcan : ps.RunCanPersist events) : (ps.run events).running = true → ¬(ps.run events).Stuck := by
  induction events generalizing ps with
  | nil => exact hstuck
  | cons event events ih =>
    obtain ⟨hinv, hkept⟩ := inv_step h event
    apply ih hinv _ hcan.2
    intro hrunning hs
    rcases hkept hrunning hs with ⟨hbefore, hold⟩ | hnot
    · exact hstuck hbefore hold
    · exact hnot hcan.1

/-- After the loop nothing changes the state or the trusted devices. -/
theorem stopped_step (h : ps.Inv) (hrunning : ps.running = false) (event : PairingEvent) :
    (ps.step event).state = ps.state ∧ (ps.step event).db = ps.db ∧
      (ps.step event).running = false := by
  obtain ⟨hstate, hactive⟩ := h.stopped hrunning
  cases event with
  | acceptPairing now uuid => simp [step, hactive, hrunning]
  | rejectPairing => simp [step, hactive, hrunning]
  | disconnectSession =>
    rw [step]
    split
    · have hkept : wp disconnectSession (fun _ t ↦ t.state = ps.state ∧ t.db = ps.db ∧
          t.running = false) { ps with rejecting := ps.rejecting - 1 } := by
        unfold disconnectSession
        rw [wp_get_bind, wp_ite, wp_pure]
        refine ⟨fun hnot ↦ ?_, fun _ ↦ ⟨rfl, rfl, hrunning⟩⟩
        rcases hstate with hstate | hstate <;> simp [hstate] at hnot
      exact hkept
    · exact ⟨rfl, rfl, hrunning⟩
  | frame plaintext now uuid raises cleanupRaises => simp [step, hrunning]
  | loopEnd cleanupRaises => simp [step, hrunning]

theorem stopped_run (h : ps.Inv) (hrunning : ps.running = false) (events : List PairingEvent) :
    (ps.run events).state = ps.state ∧ (ps.run events).db = ps.db := by
  induction events generalizing ps with
  | nil => exact ⟨rfl, rfl⟩
  | cons event events ih =>
    obtain ⟨hstate, hdb, hrunning'⟩ := stopped_step h hrunning event
    obtain ⟨hstate', hdb'⟩ := ih (inv_step h event).1 hrunning'
    exact ⟨hstate'.trans hstate, hdb'.trans hdb⟩

end Run

/-! ## Pairing needs both sides -/

/-- A session is ESTABLISHED, and the key of its peer stored, only after a click of the user and an
ACCEPT of the peer, and never after a REJECT of the peer.  In a run in which a click that completes
the pairing can write the trust, both acceptances without a rejection and without a lost connection
leave the session ESTABLISHED and the key stored. -/
theorem pairing_both_sides (ps : PairingSession) (hps : ps.Fresh) (events : List PairingEvent) :
    ((ps.run events).state = .established ∨ (ps.run events).Trusted →
      (ps.run events).localAccepted = true ∧ (ps.run events).remoteAccepted = true) ∧
    ((ps.run events).remoteRejected = true → ∀ later,
      ((ps.run events).run later).state ≠ .established ∧
        ((ps.run events).run later).db = (ps.run events).db) ∧
    (ps.RunCanPersist events → (ps.run events).running = true →
      (ps.run events).localAccepted = true → (ps.run events).remoteAccepted = true →
      (ps.run events).localRejected = false → (ps.run events).remoteRejected = false →
        (ps.run events).state = .established ∧ (ps.run events).Trusted) := by
  have hinv := inv_run (inv_fresh hps) events
  refine ⟨hinv.phase.accepted, ?_, ?_⟩
  · intro hrejected later
    have hrunning := hinv.rejected hrejected
    obtain ⟨hstate, hdb⟩ := stopped_run hinv hrunning later
    refine ⟨?_, hdb⟩
    rw [hstate]
    rcases (hinv.stopped hrunning).1 with hstopped | hstopped <;> simp [hstopped]
  · intro hcan hrunning hlocal hremote hlocalRejected _
    have hfresh : ps.running = true → ¬ps.Stuck := fun _ hstuck ↦ by simp [Stuck, hps.state] at hstuck
    have hstuck := not_stuck_run (inv_fresh hps) hfresh hcan hrunning
    have hphase := hinv.phase
    have hfailed := hinv.failed hrunning
    have hdisconnected := hinv.not_disconnected hrunning
    unfold Phase at hphase
    unfold Stuck at hstuck
    cases hstate : (ps.run events).state <;> simp_all

/-- A peer whose device id is a lone surrogate, which JSON can carry and SQLite cannot store. -/
def unstorablePeer : RemotePeer := ⟨.str [0xD800], .str (lit "Phone"), sampleKey 1⟩

def sampleSession (remote : RemotePeer) : PairingSession where
  state := .pairing
  remote := remote
  db := ⟨⟨[], List.Pairwise.nil⟩, ∅, []⟩
  running := true
  active := true
  rejecting := 0
  sent := []
  localAccepted := false
  remoteAccepted := false
  localRejected := false
  remoteRejected := false

theorem fresh_sampleSession (remote : RemotePeer) : (sampleSession remote).Fresh where
  state := rfl
  running := rfl
  active := rfl
  untrusted := by simp [Trusted, sampleSession, DeviceTable.byPublicKey]
  rejecting := rfl
  undecided := ⟨rfl, rfl, rfl, rfl⟩

/-- The peer's ACCEPT, then the user's. -/
def bothAccept : List PairingEvent :=
  [.frame (.control ⟨some .pairDecision, .obj [(lit "decision", .str (lit "ACCEPT"))] []⟩) 100 []
      false false,
    .acceptPairing 100 (lit "uuid")]

theorem pairing_both_sides_sample :
    let ps := sampleSession ⟨.str (lit "phone"), .str (lit "Phone"), sampleKey 1⟩
    ((ps.run bothAccept).state = .established ∨ (ps.run bothAccept).Trusted →
      (ps.run bothAccept).localAccepted = true ∧ (ps.run bothAccept).remoteAccepted = true) ∧
    ((ps.run bothAccept).remoteRejected = true → ∀ later,
      ((ps.run bothAccept).run later).state ≠ .established ∧
        ((ps.run bothAccept).run later).db = (ps.run bothAccept).db) ∧
    (ps.RunCanPersist bothAccept → (ps.run bothAccept).running = true →
      (ps.run bothAccept).localAccepted = true → (ps.run bothAccept).remoteAccepted = true →
      (ps.run bothAccept).localRejected = false → (ps.run bothAccept).remoteRejected = false →
        (ps.run bothAccept).state = .established ∧ (ps.run bothAccept).Trusted) :=
  pairing_both_sides _ (fresh_sampleSession _) bothAccept

/-- Both sides accept and the connection stays up, and the session is not ESTABLISHED. -/
theorem pairing_stuck : ¬∀ (ps : PairingSession), ps.Fresh → ∀ events,
    (ps.run events).running = true →
      (ps.run events).localAccepted = true → (ps.run events).remoteAccepted = true →
      (ps.run events).localRejected = false → (ps.run events).remoteRejected = false →
        (ps.run events).state = .established ∧ (ps.run events).Trusted := by
  intro h
  have hstuck : ((sampleSession unstorablePeer).run bothAccept).state = .pairAccepted := by
    decide +kernel
  have hestablished := h (sampleSession unstorablePeer) (fresh_sampleSession _) bothAccept
    (by decide +kernel) (by decide +kernel) (by decide +kernel) (by decide +kernel) (by decide +kernel)
  rw [hstuck] at hestablished
  exact absurd hestablished.1 (by decide)

end PairingSession

end Ferry
